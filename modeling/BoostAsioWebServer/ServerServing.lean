/-
  File:      BoostAsioWebServer/ServerServing.lean
  Subject:   THE LIFECYCLE WHILE HANDLERS RUN: what a handler leaves alone, and what holds of the
             threads, the mark and the accept as long as the server serves.

  * `HandlerFrame`: a handler of a connection touches its connection and its thread, no more;
  * `ServingSound`: the invariant of the lifecycle beside the one of the connections
    (ServerConcurrency.lean), with its step and its run lemma.
-/
import BoostAsioWebServer.ServerInterleaving

namespace BoostAsioWebServer

open ByteText Feed Runs

/-! ## 1. What handlers leave alone -/

section Lifecycle

variable {configuration : Configuration} {env : External} {cors : CORSConfiguration}
  {transport : Transport}

/-- What a handler of a connection leaves alone, in the thread at `k`. -/
structure HandlerFrame (s s' : ThreadedServer) (k : Nat) : Prop where
  threads : s'.base.threads = s.base.threads
  ioStopped : s'.base.ioStopped = s.base.ioStopped
  running : s'.base.running = s.base.running
  acceptor : s'.base.acceptor = s.base.acceptor
  pendingAccepts : s'.base.pendingAccepts = s.base.pendingAccepts
  slot : s'.base.newConnection = s.base.newConnection
  connections : s'.base.connections.length = s.base.connections.length
  call : s'.call = s.call
  inside : ∃ job, s'.inside = Function.update s.inside k job ∧ job ≠ some .accepting

theorem handlerFrame_begin {s : ThreadedServer} {k i : Nat} {c : Connection}
    {completion : Completion} (hk : s.inside k = none) :
    HandlerFrame s (s.beginHandler env cors transport k i c completion) k := by
  have hsame (c : Connection) : HandlerFrame s (s.setConnection i c) k := by
    refine ⟨rfl, rfl, rfl, rfl, rfl, rfl, List.length_set, rfl, none, ?_, fun e => by cases e⟩
    show s.inside = _
    rw [← hk]
    exact (Function.update_eq_self k s.inside).symm
  cases completion with
  | read data =>
    unfold ThreadedServer.beginHandler
    simp only
    split
    · exact ⟨rfl, rfl, rfl, rfl, rfl, rfl, List.length_set, rfl, _, rfl, fun e => by cases e⟩
    · exact hsame _
  | handshake failed => exact hsame _
  | readFailed => exact hsame _
  | write failed => exact hsame _

theorem handlerFrame_proceed {s s' : ThreadedServer} {k i : Nat} {c : Connection}
    {loop : RequestLoop WebService} (h : s.proceedRead env cors k i c loop = some s') :
    HandlerFrame s s' k := by
  unfold ThreadedServer.proceedRead at h
  cases hphase : loop.phase with
  | asking index =>
    rw [hphase] at h
    obtain ⟨loop', -, rfl⟩ := Option.map_eq_some_iff.mp h
    exact ⟨rfl, rfl, rfl, rfl, rfl, rfl, rfl, rfl, _, rfl, fun e => by cases e⟩
  | calling index webService =>
    rw [hphase] at h
    obtain ⟨loop', -, rfl⟩ := Option.map_eq_some_iff.mp h
    exact ⟨rfl, rfl, rfl, rfl, rfl, rfl, List.length_set, rfl, _, rfl, fun e => by cases e⟩
  | returned reply =>
    rw [hphase] at h
    cases reply with
    | none => cases h
    | some reply =>
      rw [← Option.some.inj h]
      exact ⟨rfl, rfl, rfl, rfl, rfl, rfl, List.length_set, rfl, none, rfl, fun e => by cases e⟩
  | undefined =>
    rw [hphase] at h
    cases h

variable (transport) in
/-- The first part of `handleAccept` leaves the lifecycle, the slot and the number of connections
    alone. -/
theorem beginAccept_frame (s : ThreadedServer) (k i : Nat) (failed : Bool) :
    SameLifecycle s.base (s.beginAccept transport k i failed).base ∧
      (s.beginAccept transport k i failed).base.connections.length = s.base.connections.length := by
  unfold ThreadedServer.beginAccept
  cases failed with
  | true => exact ⟨⟨rfl, rfl, rfl, rfl⟩, rfl⟩
  | false =>
    have hstart := sameLifecycle_startNewConnection transport
      { s.base with pendingAccepts := s.base.pendingAccepts.erase i }
    refine ⟨⟨hstart.ioStopped, hstart.acceptor, hstart.threads, hstart.running⟩, ?_⟩
    show (BaseServer.startNewConnection transport
      { s.base with pendingAccepts := s.base.pendingAccepts.erase i }).connections.length = _
    unfold BaseServer.startNewConnection
    split
    · exact List.length_modify ..
    · rfl

/-! ## 2. Serving -/

/-- An accept is under way, or in a thread. -/
def ThreadedServer.Accepts (s : ThreadedServer) : Prop :=
  s.base.pendingAccepts ≠ [] ∨ ∃ k, s.inside k = some .accepting

theorem HandlerFrame.accepts {s s' : ThreadedServer} {k : Nat} (h : HandlerFrame s s' k)
    (hk : s.inside k ≠ some .accepting) (ha : s.Accepts) : s'.Accepts := by
  rcases ha with hpending | ⟨k', hk'⟩
  · exact Or.inl (by rw [h.pendingAccepts]; exact hpending)
  · obtain ⟨job, hinside, -⟩ := h.inside
    have hne : k' ≠ k := by
      intro e
      subst e
      exact hk hk'
    refine Or.inr ⟨k', ?_⟩
    rw [hinside, Function.update_of_ne hne]
    exact hk'

/-- **Serving**: as long as the `io_service` is not stopped, the threads are inside `run`, and from
    the first one on the server is running and accepts; behind `io_service::stop` no thread is
    inside a handler, unless `stop` still waits for it. -/
structure ServingSound (s : ThreadedServer) : Prop where
  halted : s.base.ioStopped = true → s.call = .stopping ∨ ∀ k, s.inside k = none
  threads : s.base.ioStopped = false →
    ∀ t ∈ s.base.threads, t.joinable = true ∧ t.serving = true
  accepts : s.base.ioStopped = false →
    (s.base.threads ≠ [] ∨ ∃ os i, s.call = .starting os i) → s.base.running = true ∧ s.Accepts

theorem servingSound_new : ServingSound .new where
  halted _ := Or.inr fun _ => rfl
  threads _ t ht := absurd ht List.not_mem_nil
  accepts _ h := by
    rcases h with h | ⟨os, i, h⟩
    · exact absurd rfl h
    · cases h

/-- A handler of a connection keeps it. -/
theorem HandlerFrame.sound {s s' : ThreadedServer} {k : Nat} (h : HandlerFrame s s' k)
    (hs : ServingSound s) (hk : s.inside k ≠ some .accepting)
    (hhalted : s.base.ioStopped = true → s.call = .stopping) : ServingSound s' := by
  refine ⟨fun hio => Or.inl ?_, ?_, fun hio hstarted => ?_⟩
  · rw [h.ioStopped] at hio
    rw [h.call]
    exact hhalted hio
  · rw [h.ioStopped, h.threads]
    exact hs.threads
  · rw [h.ioStopped] at hio
    rw [h.threads, h.call] at hstarted
    obtain ⟨hrunning, haccepts⟩ := hs.accepts hio hstarted
    exact ⟨h.running.trans hrunning, h.accepts hk haccepts⟩

/-- A thread that is in a handler while the `io_service` is stopped is waited for. -/
theorem ServingSound.stopping {s : ThreadedServer} (h : ServingSound s) {k : Nat}
    (hk : s.inside k ≠ none) (hio : s.base.ioStopped = true) : s.call = .stopping :=
  (h.halted hio).resolve_right fun hnone => hk (hnone k)

theorem ThreadedServer.idle_running {s : ThreadedServer} {k : Nat} (h : s.idle k = true) :
    s.base.ioStopped = false := by
  unfold ThreadedServer.idle at h
  rw [Bool.and_eq_true, Bool.and_eq_true] at h
  simpa using h.1.1

/-- A thread of a serving server is idle where it is inside no handler. -/
theorem ServingSound.idle {s : ThreadedServer} (h : ServingSound s) (hio : s.base.ioStopped = false)
    {k : Nat} (hlt : k < s.base.threads.length) (hk : s.inside k = none) : s.idle k = true := by
  have hserving : s.base.threads[k].serving = true := (h.threads hio _ (List.getElem_mem hlt)).2
  unfold ThreadedServer.idle
  rw [hio, hk, List.getElem?_eq_getElem hlt]
  simp [hserving]

/-- Where all threads have come back none is inside a handler, known to the pool or not. -/
theorem Threaded.inside_none {es : List ThreadedEvent} {s : ThreadedServer}
    (h : Threaded env cors transport es s) (hall : s.allOutside = true) (k : Nat) :
    s.inside k = none := by
  by_contra hk
  have houtside := List.all_eq_true.mp hall k (List.mem_range.mpr (h.known k hk))
  exact hk (Option.isNone_iff_eq_none.mp houtside)

/-- Every event keeps it. -/
theorem servingSound_step {es : List ThreadedEvent} {s s' : ThreadedServer} {e : ThreadedEvent}
    (ht : Threaded env cors transport es s) (hs : ServingSound s)
    (hstep : s.step configuration env cors transport e = some s') : ServingSound s' := by
  cases (threadedStep_cases hstep).2 with
  | registerWebService webService => exact ⟨hs.halted, hs.threads, hs.accepts⟩
  | start os hcall =>
    have hnone : s.base.ioStopped = true → ∀ k, s.inside k = none := fun hio =>
      (hs.halted hio).resolve_left fun e => by rw [hcall] at e; cases e
    unfold ThreadedServer.start
    rcases openAcceptor_cases configuration os s.base with
      ⟨endpoint, -, heq⟩ | ⟨-, heq⟩ | ⟨-, acceptor, -, heq⟩
    · rw [heq]
      refine ⟨fun hio => Or.inr (hnone hio), hs.threads, fun _ _ => ⟨rfl, Or.inl ?_⟩⟩
      exact List.append_ne_nil_of_right_ne_nil _ (List.cons_ne_nil _ _)
    · rw [heq]
      exact ⟨hs.halted, hs.threads, hs.accepts⟩
    · rw [heq]
      exact ⟨hs.halted, hs.threads, hs.accepts⟩
  | createThread os i hcall =>
    have hnone : s.base.ioStopped = true → ∀ k, s.inside k = none := fun hio =>
      (hs.halted hio).resolve_left fun e => by rw [hcall] at e; cases e
    have hstarting : s.base.ioStopped = false → s.base.running = true ∧ s.Accepts := fun hio =>
      hs.accepts hio (Or.inr ⟨os, i, hcall⟩)
    unfold ThreadedServer.createThread
    split
    · split
      · refine ⟨fun hio => Or.inr (hnone hio), fun hio t ht => ?_, fun hio _ => hstarting hio⟩
        have hrunning : s.base.ioStopped = false := hio
        rcases List.mem_append.mp ht with ht | ht
        · exact hs.threads hio t ht
        · rw [List.mem_singleton.mp ht, hrunning]
          exact ⟨rfl, rfl⟩
      · exact ⟨fun hio => Or.inr (hnone hio), hs.threads, fun hio _ => hstarting hio⟩
    · exact ⟨fun hio => Or.inr (hnone hio), hs.threads, fun hio _ => hstarting hio⟩
  | stop =>
    exact ⟨fun _ => Or.inl rfl, fun hio => (by cases hio), fun hio => (by cases hio)⟩
  | join hcall hall =>
    have hstopped : s.base.stop.1.ioStopped = true := by
      unfold BaseServer.stop
      simp only
      split
      · rfl
      · rfl
    refine ⟨fun _ => Or.inr (ht.inside_none hall), fun hio => ?_, fun hio => ?_⟩
    · rw [show s.base.stop.1.ioStopped = false from hio] at hstopped
      cases hstopped
    · rw [show s.base.stop.1.ioStopped = false from hio] at hstopped
      cases hstopped
  | accept k i failed hidle hi =>
    have hio := ThreadedServer.idle_running hidle
    have hsame := (beginAccept_frame transport s k i failed).1
    refine ⟨fun hio' => ?_, fun _ => ?_, fun _ hstarted => ?_⟩
    · rw [hsame.ioStopped, hio] at hio'
      cases hio'
    · rw [hsame.threads]
      exact hs.threads hio
    · rw [hsame.threads] at hstarted
      refine ⟨hsame.running.trans (hs.accepts hio hstarted).1, Or.inr ⟨k, ?_⟩⟩
      exact Function.update_self k _ s.inside
  | complete k i completion c hidle =>
    have hio := ThreadedServer.idle_running hidle
    have hk := (ThreadedServer.idle_iff hidle).1
    refine (handlerFrame_begin hk).sound hs (by rw [hk]; exact fun e => by cases e) fun hio' => ?_
    rw [hio] at hio'
    cases hio'
  | proceedAccept k hk =>
    have hstopping := fun hio => hs.stopping (k := k) (by rw [hk]; exact fun e => by cases e) hio
    unfold ThreadedServer.proceedAccept
    split
    · refine ⟨fun hio => Or.inl (hstopping hio), hs.threads, fun hio hstarted =>
        ⟨(hs.accepts hio hstarted).1, Or.inl ?_⟩⟩
      exact List.append_ne_nil_of_right_ne_nil _ (List.cons_ne_nil _ _)
    · rename_i hrunning
      refine ⟨fun hio => Or.inl (hstopping hio), hs.threads, fun hio hstarted => ?_⟩
      exact absurd (hs.accepts hio hstarted).1 hrunning
  | proceedRead k i loop c _ hk _ hproceed =>
    refine (handlerFrame_proceed hproceed).sound hs (by rw [hk]; exact fun e => by cases e)
      fun hio => hs.stopping (k := k) (by rw [hk]; exact fun e => by cases e) hio

theorem servingSound_run {es : List ThreadedEvent} {s : ThreadedServer}
    (hrun : Run (ThreadedServer.step configuration env cors transport) .new es s) :
    ServingSound s :=
  (Run.history (I := fun es s => Threaded env cors transport es s ∧ ServingSound s)
    (fun _ _ _ _ h hstep => ⟨threaded_step h.1 hstep, servingSound_step h.1 h.2 hstep⟩)
    ⟨threaded_new env cors transport, servingSound_new⟩ hrun).2

end Lifecycle

end BoostAsioWebServer
