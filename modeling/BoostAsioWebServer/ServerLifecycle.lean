/-
  File:      BoostAsioWebServer/ServerLifecycle.lean
  Subject:   THE LIFECYCLE OF A SERVER over all sequences of calls and completions.

  One lemma for each call says what it can do (`openAcceptor_cases`, `start_cases`,
  `stop_returns`, `stop_throws`), one for a step (`step_cases`); the invariants follow from these.

  * `destroy_clean_iff`: every thread is joined exactly once and the destruction completes if and
    only if no explicit `stop` meets a thread;
  * `isRunning_honest_iff`: `isRunning` tells the truth in every state if and only if no `start`
    gets the acceptor listening on a stopped `io_service` or cannot create its first thread then;
  * `failed_start_unchanged_iff`: a failed `start` leaves the server as it was if and only if it
    fails before the acceptor is opened.
-/
import BoostAsioWebServer.BaseServer
import BoostAsioWebServer.Lib.Runs

namespace BoostAsioWebServer

open ByteText Runs

/-! ## 1. What the calls can do -/

/-- `BaseServer::isRunning`. -/
def BaseServer.isRunning (s : BaseServer) : Bool := s.running

section Lifecycle

variable (configuration : Configuration)

/-- `openAcceptor` gets through: the endpoint is known, the acceptor is closed, and each call on it
    succeeds. -/
structure Opens (os : StartOutcomes) (s : BaseServer) (endpoint : Endpoint) : Prop where
  endpoint_eq : configuration.endpoint os = some endpoint
  closed : s.acceptor = .closed
  opens : os.opens = true
  setsOption : os.setsOption = true
  binds : os.binds = true
  listens : os.listens = true

/-- `openAcceptor` gets as far as opening the acceptor. -/
def Touches (os : StartOutcomes) (s : BaseServer) : Prop :=
  configuration.endpoint os ≠ none ∧ s.acceptor = .closed ∧ os.opens = true

/-- **What `openAcceptor` can do**: get through, throw in the state it found, or throw and leave
    the acceptor open. -/
theorem openAcceptor_cases (os : StartOutcomes) (s : BaseServer) :
    (∃ endpoint, Opens configuration os s endpoint ∧ s.openAcceptor configuration os =
      ({ s with acceptor := .listening endpoint, running := true }.startAcceptor, .returned)) ∨
    (¬ Touches configuration os s ∧ s.openAcceptor configuration os = (s, .threw)) ∨
    (Touches configuration os s ∧ ∃ acceptor, acceptor ≠ .closed ∧
      s.openAcceptor configuration os = ({ s with acceptor := acceptor }, .threw)) := by
  unfold BaseServer.openAcceptor
  cases hendpoint : configuration.endpoint os with
  | none => exact Or.inr (Or.inl ⟨fun h => h.1 hendpoint, rfl⟩)
  | some endpoint =>
    by_cases hopen : s.acceptor ≠ .closed || !os.opens
    · refine Or.inr (Or.inl ⟨fun h => ?_, by simp only [hopen, if_true]⟩)
      rw [h.2.1, h.2.2] at hopen
      exact absurd hopen (by decide)
    have hclosed : s.acceptor = .closed := by
      by_contra hne
      exact hopen (by simp [hne])
    have hopens : os.opens = true := by
      by_contra hne
      exact hopen (by simp [hne])
    have htouches : Touches configuration os s := ⟨by rw [hendpoint]; simp, hclosed, hopens⟩
    simp only [hopen, if_false, Bool.false_eq_true]
    cases hset : os.setsOption with
    | false => exact Or.inr (Or.inr ⟨htouches, .opened, by decide, rfl⟩)
    | true =>
      cases hbind : os.binds with
      | false => exact Or.inr (Or.inr ⟨htouches, .opened, by decide, rfl⟩)
      | true =>
        cases hlisten : os.listens with
        | false => exact Or.inr (Or.inr ⟨htouches, .bound endpoint, by simp, rfl⟩)
        | true =>
          exact Or.inl ⟨endpoint, ⟨hendpoint, hclosed, hopens, hset, hbind, hlisten⟩, rfl⟩

/-- The loop of `start` adds fresh threads and changes nothing else. -/
theorem startThreads_adds (os : StartOutcomes) (n i : Nat) (s : BaseServer) :
    ∃ added, (s.startThreads os n i).1 = { s with threads := s.threads ++ added } ∧
      ∀ t ∈ added, t = ⟨true, 0, 0, !s.ioStopped⟩ := by
  induction n generalizing i s with
  | zero => exact ⟨[], by simp [BaseServer.startThreads], fun t ht => absurd ht List.not_mem_nil⟩
  | succ n ih =>
    rw [BaseServer.startThreads]
    by_cases hcreate : os.createsThread i = true
    · obtain ⟨added, heq, hadded⟩ :=
        ih (i + 1) { s with threads := s.threads ++ [⟨true, 0, 0, !s.ioStopped⟩] }
      refine ⟨⟨true, 0, 0, !s.ioStopped⟩ :: added, ?_, fun t ht => ?_⟩
      · rw [if_pos hcreate, heq]
        simp
      · rcases List.mem_cons.mp ht with rfl | ht
        · rfl
        · exact hadded t ht
    · rw [if_neg hcreate]
      exact ⟨[], by simp, fun t ht => absurd ht List.not_mem_nil⟩

/-- The loop of `start` adds no thread exactly where it cannot create the first one. -/
theorem startThreads_none_iff (os : StartOutcomes) {n : Nat} (hn : 0 < n) (i : Nat)
    (s : BaseServer) :
    (s.startThreads os n i).1.threads = s.threads ↔ os.createsThread i = false := by
  obtain ⟨n, rfl⟩ : ∃ m, n = m + 1 := ⟨n - 1, by omega⟩
  rw [BaseServer.startThreads]
  cases hcreate : os.createsThread i with
  | false => exact ⟨fun _ => rfl, fun _ => rfl⟩
  | true =>
    obtain ⟨added, heq, -⟩ := startThreads_adds os n (i + 1)
      { s with threads := s.threads ++ [⟨true, 0, 0, !s.ioStopped⟩] }
    rw [if_pos rfl, heq]
    refine ⟨fun h => ?_, fun h => by cases h⟩
    have hlength := congrArg List.length h
    simp at hlength

/-- **What `start` can do**: open the acceptor and add threads, or throw and change at most the
    acceptor, and that only where it was closed. -/
theorem start_cases (os : StartOutcomes) (s : BaseServer) :
    (∃ endpoint added, Opens configuration os s endpoint ∧
      (s.start configuration os).1 =
        { { s with acceptor := .listening endpoint, running := true }.startAcceptor with
          threads := s.threads ++ added } ∧
      ∀ t ∈ added, t = ⟨true, 0, 0, !s.ioStopped⟩) ∨
    (∃ acceptor, (s.acceptor ≠ .closed → acceptor = s.acceptor) ∧
      s.start configuration os = ({ s with acceptor := acceptor }, .threw)) := by
  unfold BaseServer.start
  rcases openAcceptor_cases configuration os s with
    ⟨endpoint, hopens, heq⟩ | ⟨-, heq⟩ | ⟨htouches, acceptor, -, heq⟩
  · obtain ⟨added, hadd, hadded⟩ := startThreads_adds os configuration.threadPoolSize 0
      { s with acceptor := .listening endpoint, running := true }.startAcceptor
    rw [heq]
    exact Or.inl ⟨endpoint, added, hopens, hadd, hadded⟩
  · rw [heq]
    exact Or.inr ⟨s.acceptor, fun _ => rfl, rfl⟩
  · rw [heq]
    exact Or.inr ⟨acceptor, fun h => absurd htouches.2.1 h, rfl⟩

variable {configuration} in
/-- Where `openAcceptor` gets through, `start` comes to its loop on a listening server. -/
theorem Opens.start_eq {os : StartOutcomes} {s : BaseServer} {endpoint : Endpoint}
    (h : Opens configuration os s endpoint) :
    s.start configuration os =
      { s with acceptor := .listening endpoint, running := true }.startAcceptor.startThreads os
        configuration.threadPoolSize 0 := by
  have hopen : s.openAcceptor configuration os =
      ({ s with acceptor := .listening endpoint, running := true }.startAcceptor, .returned) := by
    unfold BaseServer.openAcceptor
    simp [h.endpoint_eq, h.closed, h.opens, h.setsOption, h.binds, h.listens]
  rw [BaseServer.start, hopen]

/-- Where `openAcceptor` gets through the server is marked as running, whatever becomes of the
    threads. -/
theorem start_of_opens {os : StartOutcomes} {s : BaseServer} {endpoint : Endpoint}
    (h : Opens configuration os s endpoint) :
    (s.start configuration os).1.running = true ∧
      (s.start configuration os).1.ioStopped = s.ioStopped := by
  obtain ⟨added, hadd, -⟩ := startThreads_adds os configuration.threadPoolSize 0
    { s with acceptor := .listening endpoint, running := true }.startAcceptor
  rw [h.start_eq, hadd]
  exact ⟨rfl, rfl⟩

/-! ## 2. Joining -/

/-- A thread after a successful `join`. -/
def Thread.joined (t : Thread) : Thread := { t with joinable := false, joins := t.joins + 1 }

theorem joinAll_joinable {ts : List Thread} (h : ∀ t ∈ ts, t.joinable = true) :
    joinAll ts = (ts.map Thread.joined, .returned) := by
  induction ts with
  | nil => rfl
  | cons t ts ih =>
    have hts := ih fun x hx => h x (List.mem_cons_of_mem _ hx)
    rw [joinAll, if_pos (h t List.mem_cons_self), hts]
    rfl

/-- **`stop` with joinable threads** joins each of them once. -/
theorem stop_returns {s : BaseServer} (h : ∀ t ∈ s.threads, t.joinable = true) :
    s.stop = ({ s with
      ioStopped := true
      threads := (s.threads.map Thread.leave).map Thread.joined
      running := false }, .returned) := by
  have hleave : ∀ t ∈ s.threads.map Thread.leave, t.joinable = true := by
    intro t ht
    obtain ⟨u, hu, rfl⟩ := List.mem_map.mp ht
    exact h u hu
  unfold BaseServer.stop
  simp only [joinAll_joinable hleave]

/-- **`stop` with a first thread that was joined before** throws at it. -/
theorem stop_throws {s : BaseServer} {t : Thread} {ts : List Thread} (hs : s.threads = t :: ts)
    (ht : t.joinable = false) :
    s.stop = ({ s with
      ioStopped := true
      threads := { t.leave with failedJoins := t.failedJoins + 1 } :: ts.map Thread.leave },
        .threw) := by
  have hleave : t.leave.joinable = false := ht
  unfold BaseServer.stop
  simp only [hs, List.map_cons, joinAll, hleave, Bool.false_eq_true, if_false]
  rfl

/-- `stop` leaves the acceptor as it is. -/
theorem stop_acceptor (s : BaseServer) : s.stop.1.acceptor = s.acceptor := by
  unfold BaseServer.stop
  simp only
  split <;> rfl

/-- The first thread of the server is not joinable. -/
def HeadJoined (s : BaseServer) : Prop := ∃ t ts, s.threads = t :: ts ∧ t.joinable = false

/-- Behind a `stop` that met a thread, the first thread is not joinable. -/
theorem headJoined_stop {s : BaseServer} (h : s.threads ≠ []) : HeadJoined s.stop.1 := by
  cases hs : s.threads with
  | nil => exact absurd hs h
  | cons t ts =>
    unfold BaseServer.stop
    simp only [hs, List.map_cons, joinAll]
    cases ht : t.joinable with
    | false =>
      have hleave : t.leave.joinable = false := ht
      simp only [hleave, Bool.false_eq_true, if_false]
      exact ⟨_, _, rfl, rfl⟩
    | true =>
      have hleave : t.leave.joinable = true := ht
      simp only [hleave, if_true]
      split
      · exact ⟨_, _, rfl, rfl⟩
      · exact ⟨_, _, rfl, rfl⟩

/-! ## 3. Steps -/

variable (services : Services) (transport : Transport)

/-- Nothing but the connections and the accepts differs. -/
structure SameLifecycle (s s' : BaseServer) : Prop where
  ioStopped : s'.ioStopped = s.ioStopped
  acceptor : s'.acceptor = s.acceptor
  threads : s'.threads = s.threads
  running : s'.running = s.running

theorem sameLifecycle_startNewConnection (s : BaseServer) :
    SameLifecycle s (s.startNewConnection transport) := by
  unfold BaseServer.startNewConnection
  cases s.newConnection with
  | none => exact ⟨rfl, rfl, rfl, rfl⟩
  | some i => exact ⟨rfl, rfl, rfl, rfl⟩

/-- The handler of an accept leaves the lifecycle alone. -/
theorem sameLifecycle_handleAccept (s : BaseServer) (failed : Bool) :
    SameLifecycle s (s.handleAccept transport failed) := by
  have hafter (s' : BaseServer) (h : SameLifecycle s s') :
      SameLifecycle s (if s'.running then s'.startAcceptor else s') := by
    split
    · exact ⟨h.ioStopped, h.acceptor, h.threads, h.running⟩
    · exact h
  cases failed with
  | false => exact hafter _ (sameLifecycle_startNewConnection transport s)
  | true => exact hafter _ ⟨rfl, rfl, rfl, rfl⟩

theorem step_stop {s s' : BaseServer}
    (h : s.step configuration services transport .stop = some s') : s' = s.stop.1 := by
  simp only [BaseServer.step] at h
  split at h
  · cases h
  · exact (Option.some.inj h).symm

theorem step_start {s s' : BaseServer} {os : StartOutcomes}
    (h : s.step configuration services transport (.start os) = some s') :
    s' = (s.start configuration os).1 := by
  simp only [BaseServer.step] at h
  split at h
  · cases h
  · exact (Option.some.inj h).symm

/-- **What one event can do.** -/
theorem step_cases {s s' : BaseServer} {e : Event}
    (h : s.step configuration services transport e = some s') :
    (∃ os, e = .start os ∧ s' = (s.start configuration os).1) ∨
    (e = .stop ∧ s' = s.stop.1) ∨
    (∃ index failed, e = .accept index failed ∧ index ∈ s.pendingAccepts ∧
      s' = BaseServer.handleAccept transport
        { s with pendingAccepts := s.pendingAccepts.erase index } failed) ∨
    (∃ index completion c c', e = .complete index completion ∧ s.connections[index]? = some c ∧
      c.complete services transport completion = some c' ∧
      s' = { s with connections := s.connections.set index c', crashed := hasThrown c'.log }) := by
  cases e with
  | start os => exact Or.inl ⟨os, rfl, step_start configuration services transport h⟩
  | stop => exact Or.inr (Or.inl ⟨rfl, step_stop configuration services transport h⟩)
  | accept index failed =>
    simp only [BaseServer.step] at h
    split at h
    · rename_i hguard
      exact Or.inr (Or.inr (Or.inl ⟨index, failed, rfl, hguard.2.2, (Option.some.inj h).symm⟩))
    · cases h
  | complete index completion =>
    simp only [BaseServer.step] at h
    split at h
    · split at h
      · rename_i c hc
        obtain ⟨c', hc', rfl⟩ := Option.map_eq_some_iff.mp h
        exact Or.inr (Or.inr (Or.inr ⟨index, completion, c, c', rfl, hc, hc', rfl⟩))
      · cases h
    · cases h

/-! ## 4. Joining exactly once -/

/-- Every thread is joined exactly once and `join` is called on none in vain. -/
def JoinedOnce (s : BaseServer) : Prop := ∀ t ∈ s.threads, t.joins = 1 ∧ t.failedJoins = 0

/-- No explicit `stop` meets a thread. -/
def StopMeetsNoThread (s : BaseServer) (e : Event) : Prop := e = .stop → s.threads = []

/-- Threads nobody has joined. -/
def Unjoined (s : BaseServer) : Prop :=
  ∀ t ∈ s.threads, t.joinable = true ∧ t.joins = 0 ∧ t.failedJoins = 0

/-- A step that is no `stop` keeps the threads and may add fresh ones. -/
theorem threads_step {s s' : BaseServer} {e : Event}
    (h : s.step configuration services transport e = some s') (he : e ≠ .stop) :
    ∃ added, s'.threads = s.threads ++ added ∧
      ∀ t ∈ added, t.joinable = true ∧ t.joins = 0 ∧ t.failedJoins = 0 := by
  have hsame (hthreads : s'.threads = s.threads) : ∃ added, s'.threads = s.threads ++ added ∧
      ∀ t ∈ added, t.joinable = true ∧ t.joins = 0 ∧ t.failedJoins = 0 :=
    ⟨[], by rw [hthreads, List.append_nil], fun t ht => absurd ht List.not_mem_nil⟩
  rcases step_cases configuration services transport h with
    ⟨os, -, rfl⟩ | ⟨rfl, -⟩ | ⟨index, failed, -, -, rfl⟩ | ⟨index, completion, c, c', -, -, -, rfl⟩
  · rcases start_cases configuration os s with ⟨endpoint, added, -, heq, hadded⟩ | ⟨acceptor, -, heq⟩
    · rw [heq]
      exact ⟨added, rfl, fun t ht => by rw [hadded t ht]; exact ⟨rfl, rfl, rfl⟩⟩
    · rw [heq] at hsame ⊢
      exact hsame rfl
  · exact absurd rfl he
  · exact hsame (sameLifecycle_handleAccept transport _ failed).threads
  · exact hsame rfl

/-- Under the condition nobody joins a thread before the destruction. -/
theorem unjoined_step {s s' : BaseServer} {e : Event} (hs : Unjoined s)
    (he : StopMeetsNoThread s e) (h : s.step configuration services transport e = some s') :
    Unjoined s' := by
  by_cases hstop : e = .stop
  · have hnone := he hstop
    subst hstop
    have hjoinable : ∀ t ∈ s.threads, t.joinable = true := fun t ht => (hs t ht).1
    rw [step_stop configuration services transport h, stop_returns hjoinable, hnone]
    exact fun t ht => absurd ht List.not_mem_nil
  · obtain ⟨added, hthreads, hadded⟩ := threads_step configuration services transport h hstop
    intro t ht
    rw [hthreads] at ht
    exact (List.mem_append.mp ht).elim (hs t) (hadded t)

/-- A first thread that is not joinable stays the first and stays so. -/
theorem headJoined_step {s s' : BaseServer} {e : Event} (hs : HeadJoined s)
    (h : s.step configuration services transport e = some s') : HeadJoined s' := by
  obtain ⟨t, ts, hthreads, ht⟩ := hs
  by_cases hstop : e = .stop
  · subst hstop
    rw [step_stop configuration services transport h]
    exact headJoined_stop (by rw [hthreads]; exact List.cons_ne_nil t ts)
  · obtain ⟨added, hthreads', -⟩ := threads_step configuration services transport h hstop
    exact ⟨t, ts ++ added, by rw [hthreads', hthreads, List.cons_append], ht⟩

/-- **Every thread is joined exactly once and the destruction completes if and only if no explicit
    `stop` meets a thread**, over every sequence of calls and completions. The destructor runs
    behind them, with no handler beside it: `ServerDestruction` interleaves the two. -/
theorem destroy_clean_iff {es : List Event} {s : BaseServer}
    (hrun : Run (BaseServer.step configuration services transport) .new es s) :
    (s.destroy.2 = .returned ∧ JoinedOnce s.destroy.1) ↔
      StepsMeet (BaseServer.step configuration services transport) StopMeetsNoThread .new es := by
  constructor
  · rintro ⟨hreturned, -⟩
    by_contra hno
    obtain ⟨pre, e, post, t, t', -, -, hbroken, hstep, hpost⟩ :=
      exists_step_of_not_stepsMeet hrun hno
    unfold StopMeetsNoThread at hbroken
    push Not at hbroken
    obtain ⟨rfl, hthreads⟩ := hbroken
    have hstopped : HeadJoined t' := by
      rw [step_stop configuration services transport hstep]
      exact headJoined_stop hthreads
    have hend : HeadJoined s := Run.invariant
      (fun _ _ _ h hstep => headJoined_step configuration services transport h hstep) hstopped hpost
    obtain ⟨x, xs, hx, hjoined⟩ := hend
    rw [BaseServer.destroy, stop_throws hx hjoined] at hreturned
    cases hreturned
  · intro hsteps
    have hnew : Unjoined .new := fun t ht => absurd ht List.not_mem_nil
    have hend : Unjoined s := Run.invariant_of_steps
      (fun _ _ _ hs he h => unjoined_step configuration services transport hs he h) hnew hrun hsteps
    rw [BaseServer.destroy, stop_returns fun t ht => (hend t ht).1]
    refine ⟨rfl, fun t ht => ?_⟩
    obtain ⟨u, hu, rfl⟩ := List.mem_map.mp ht
    obtain ⟨v, hv, rfl⟩ := List.mem_map.mp hu
    obtain ⟨-, hjoins, hfailed⟩ := hend v hv
    exact ⟨congrArg (· + 1) hjoins, hfailed⟩

/-! ## 5. What `isRunning` tells -/

/-- The server serves: the acceptor is listening, exactly one accept is under way, the
    `io_service` is not stopped, the pool has a thread, and each of its threads is inside `run`. -/
structure IsServing (s : BaseServer) : Prop where
  listening : ∃ endpoint, s.acceptor = .listening endpoint
  oneAccept : s.pendingAccepts.length = 1
  notStopped : s.ioStopped = false
  manned : s.threads ≠ []
  threads : ∀ t ∈ s.threads, t.serving = true

/-- `isRunning` tells the truth. -/
def Honest (s : BaseServer) : Prop := s.isRunning = true → IsServing s

/-- A `start` that gets the acceptor listening finds an `io_service` that is not stopped and can
    create its first thread: `m_running` is set before both matter. -/
def OpensToServe (s : BaseServer) (e : Event) : Prop :=
  ∀ os endpoint, e = .start os → Opens configuration os s endpoint →
    s.ioStopped = false ∧ os.createsThread 0 = true

/-- A server whose acceptor was never opened has no thread. -/
def ClosedUnmanned (s : BaseServer) : Prop := s.acceptor = .closed → s.threads = []

/-- Every step keeps that: `start` opens the acceptor before it adds a thread. -/
theorem closedUnmanned_step {s s' : BaseServer} {e : Event} (hs : ClosedUnmanned s)
    (h : s.step configuration services transport e = some s') : ClosedUnmanned s' := by
  rcases step_cases configuration services transport h with
    ⟨os, rfl, rfl⟩ | ⟨rfl, rfl⟩ | ⟨index, failed, -, -, rfl⟩ | ⟨index, completion, c, c', -, -, -, rfl⟩
  · rcases start_cases configuration os s with ⟨endpoint, added, -, heq, -⟩ |
      ⟨acceptor, hacceptor, heq⟩
    · rw [heq]
      exact fun hclosed => by cases hclosed
    · rw [heq]
      intro hbehind
      by_cases hclosed : s.acceptor = .closed
      · exact hs hclosed
      · have hkept : acceptor = .closed := hbehind
        exact absurd ((hacceptor hclosed).symm.trans hkept) hclosed
  · intro hclosed
    have hkept : s.stop.1.acceptor = s.acceptor := stop_acceptor s
    have hnone := hs (hkept ▸ hclosed)
    unfold BaseServer.stop
    rw [hnone]
    rfl
  · obtain ⟨-, hacceptor, hthreads, -⟩ := sameLifecycle_handleAccept transport
      { s with pendingAccepts := s.pendingAccepts.erase index } failed
    intro hclosed
    rw [hthreads]
    exact hs (hacceptor ▸ hclosed)
  · exact hs

/-- A `start` that opens the acceptor of a server with no thread leaves one without a thread exactly
    where it cannot create the first. -/
theorem unmanned_start_iff (hpool : 0 < configuration.threadPoolSize) {os : StartOutcomes}
    {s : BaseServer} {endpoint : Endpoint} (hs : s.threads = [])
    (h : Opens configuration os s endpoint) :
    (s.start configuration os).1.threads = [] ↔ os.createsThread 0 = false := by
  rw [h.start_eq, ← startThreads_none_iff os hpool 0
    { s with acceptor := .listening endpoint, running := true }.startAcceptor]
  exact (congrArg (_ = ·) hs.symm).to_iff

/-- The invariant under that condition: a closed acceptor has had nothing done yet, and a server
    that is marked as running serves, with threads nobody has joined. -/
structure Sound (s : BaseServer) : Prop where
  closed : s.acceptor = .closed → s.threads = [] ∧ s.pendingAccepts = [] ∧ s.running = false
  running : s.running = true → IsServing s ∧ ∀ t ∈ s.threads, t.joinable = true

theorem sound_new : Sound .new where
  closed _ := ⟨rfl, rfl, rfl⟩
  running h := by cases h

theorem sound_start (hpool : 0 < configuration.threadPoolSize) {os : StartOutcomes} {s : BaseServer}
    (hs : Sound s) (he : OpensToServe configuration s (.start os)) :
    Sound (s.start configuration os).1 := by
  rcases start_cases configuration os s with ⟨endpoint, added, hopens, heq, hadded⟩ |
    ⟨acceptor, hacceptor, heq⟩
  · obtain ⟨hthreads, hpending, -⟩ := hs.closed hopens.closed
    obtain ⟨hunstopped, hcreates⟩ := he os endpoint rfl hopens
    have hmanned : (s.start configuration os).1.threads ≠ [] := by
      rw [Ne, unmanned_start_iff configuration hpool hthreads hopens, hcreates]
      decide
    rw [heq] at hmanned ⊢
    refine ⟨fun h => ?_, fun _ => ⟨⟨⟨endpoint, rfl⟩, ?_, hunstopped, hmanned, ?_⟩, ?_⟩⟩
    · cases h
    · show (s.pendingAccepts ++ [s.connections.length]).length = 1
      rw [hpending]
      rfl
    · intro t ht
      rw [hthreads, List.nil_append] at ht
      rw [hadded t ht, hunstopped]
      rfl
    · intro t ht
      rw [hthreads, List.nil_append] at ht
      rw [hadded t ht]
  · rw [heq]
    by_cases hclosed : s.acceptor = .closed
    · obtain ⟨hthreads, hpending, hrunning⟩ := hs.closed hclosed
      refine ⟨fun _ => ⟨hthreads, hpending, hrunning⟩, fun h => ?_⟩
      have h' : s.running = true := h
      rw [hrunning] at h'
      cases h'
    · rw [hacceptor hclosed]
      exact hs

/-- Behind a `stop` the server is not marked as running. -/
theorem sound_stop {s : BaseServer} (hs : Sound s) : Sound s.stop.1 := by
  cases hrunning : s.running with
  | true =>
    rw [stop_returns (hs.running hrunning).2]
    refine ⟨fun h => ?_, fun h => by cases h⟩
    obtain ⟨hthreads, hpending, -⟩ := hs.closed h
    rw [hthreads]
    exact ⟨rfl, hpending, rfl⟩
  | false =>
    have hframe : s.stop.1.acceptor = s.acceptor ∧ s.stop.1.pendingAccepts = s.pendingAccepts ∧
        s.stop.1.running = false ∧ (s.threads = [] → s.stop.1.threads = []) := by
      unfold BaseServer.stop
      simp only
      split
      · refine ⟨rfl, rfl, hrunning, fun h => ?_⟩
        rename_i heq
        rw [h] at heq
        cases heq
      · refine ⟨rfl, rfl, rfl, fun h => ?_⟩
        simp only [h]
        rfl
    obtain ⟨hacceptor, hpending, hstopped, hthreads⟩ := hframe
    refine ⟨fun h => ?_, fun h => ?_⟩
    · rw [hacceptor] at h
      obtain ⟨h1, h2, -⟩ := hs.closed h
      exact ⟨hthreads h1, by rw [hpending, h2], hstopped⟩
    · rw [hstopped] at h
      cases h

/-- The handler of an accept puts the next one under way while the server is running. -/
theorem sound_accept {s : BaseServer} (hs : Sound s) {index : Nat} (failed : Bool)
    (hindex : index ∈ s.pendingAccepts) :
    Sound (BaseServer.handleAccept transport
      { s with pendingAccepts := s.pendingAccepts.erase index } failed) := by
  obtain ⟨hio, hacceptor, hthreads, hrunning⟩ := sameLifecycle_handleAccept transport
    { s with pendingAccepts := s.pendingAccepts.erase index } failed
  refine ⟨fun h => ?_, fun h => ?_⟩
  · rw [hacceptor] at h
    rw [(hs.closed h).2.1] at hindex
    cases hindex
  · rw [hrunning] at h
    obtain ⟨hserving, hjoinable⟩ := hs.running h
    refine ⟨⟨by rw [hacceptor]; exact hserving.listening, ?_, hio.trans hserving.notStopped,
      by rw [hthreads]; exact hserving.manned, by rw [hthreads]; exact hserving.threads⟩,
      by rw [hthreads]; exact hjoinable⟩
    have hrun : s.running = true := h
    obtain ⟨x, hx⟩ := List.length_eq_one_iff.mp hserving.oneAccept
    rw [hx, List.mem_singleton] at hindex
    have herase : s.pendingAccepts.erase index = [] := by
      rw [hx, hindex]
      exact List.erase_cons_head x []
    unfold BaseServer.handleAccept BaseServer.startNewConnection BaseServer.startAcceptor
    cases failed with
    | true => simp [hrun, herase]
    | false =>
      cases s.newConnection with
      | none => simp [hrun, herase]
      | some i => simp [hrun, herase]

/-- **Under the condition every step keeps the invariant.** -/
theorem sound_step (hpool : 0 < configuration.threadPoolSize) {s s' : BaseServer} {e : Event}
    (hs : Sound s) (he : OpensToServe configuration s e)
    (h : s.step configuration services transport e = some s') : Sound s' := by
  rcases step_cases configuration services transport h with
    ⟨os, rfl, rfl⟩ | ⟨-, rfl⟩ | ⟨index, failed, -, hindex, rfl⟩ |
    ⟨index, completion, c, c', -, -, -, rfl⟩
  · exact sound_start configuration hpool hs he
  · exact sound_stop hs
  · exact sound_accept transport hs failed hindex
  · exact ⟨hs.closed, fun h => ⟨⟨(hs.running h).1.listening, (hs.running h).1.oneAccept,
      (hs.running h).1.notStopped, (hs.running h).1.manned, (hs.running h).1.threads⟩,
      (hs.running h).2⟩⟩

/-- **`isRunning` never lies if and only if no `start` gets the acceptor listening on a stopped
    `io_service` or then fails to create its first thread**: over every sequence of calls and
    completions, in every state on the way, for a pool of at least one thread. -/
theorem isRunning_honest_iff (hpool : 0 < configuration.threadPoolSize) {es : List Event}
    {s : BaseServer} (hrun : Run (BaseServer.step configuration services transport) .new es s) :
    Throughout (BaseServer.step configuration services transport) Honest .new es ↔
      StepsMeet (BaseServer.step configuration services transport)
        (OpensToServe configuration) .new es := by
  constructor
  · intro hhonest
    by_contra hno
    obtain ⟨pre, e, post, t, t', rfl, hpre, hbroken, hstep, -⟩ :=
      exists_step_of_not_stepsMeet hrun hno
    unfold OpensToServe at hbroken
    push Not at hbroken
    obtain ⟨os, endpoint, rfl, hopens, hbroken⟩ := hbroken
    obtain ⟨hmarked, hio⟩ := start_of_opens configuration hopens
    rw [step_start configuration services transport hstep] at hstep
    have hreached : Run (BaseServer.step configuration services transport) .new
        (pre ++ [.start os]) (t.start configuration os).1 :=
      Run.snoc_iff.mpr ⟨t, hpre, hstep⟩
    have hserving := hhonest (pre ++ [.start os]) post _ (by simp) hreached hmarked
    have hcreates := hbroken (hio ▸ hserving.notStopped)
    have hclosed : ClosedUnmanned t := Run.invariant
      (fun _ _ _ hs h => closedUnmanned_step configuration services transport hs h)
      (fun _ => rfl) hpre
    exact hserving.manned ((unmanned_start_iff configuration hpool (hclosed hopens.closed)
      hopens).mpr (by simpa using hcreates))
  · intro hsteps pre post t hes hpre hmarked
    rw [hes] at hsteps
    have hsound : Sound t := Run.invariant_of_steps
      (fun _ _ _ hs he h => sound_step configuration services transport hpool hs he h) sound_new
      hpre hsteps.take
    exact (hsound.running hmarked).1

/-! ## 6. A failed `start` -/

/-- **A failed `start` leaves the server as it was**, and a later `start` does what it would have
    done without the failed one, **if and only if** the endpoint could not be built, the acceptor
    was open already, or it could not be opened. -/
theorem failed_start_unchanged_iff (os : StartOutcomes) (s : BaseServer)
    (hfailed : (s.openAcceptor configuration os).2 = .threw) :
    ((s.start configuration os).1 = s ∧ ∀ os', (s.start configuration os).1.start configuration os' =
      s.start configuration os') ↔
    configuration.endpoint os = none ∨ s.acceptor ≠ .closed ∨ os.opens = false := by
  have hstart : s.start configuration os = s.openAcceptor configuration os := by
    unfold BaseServer.start
    rcases hopen : s.openAcceptor configuration os with ⟨s', outcome⟩
    rw [hopen] at hfailed
    cases hfailed
    rfl
  rw [hstart]
  rcases openAcceptor_cases configuration os s with
    ⟨endpoint, -, heq⟩ | ⟨hno, heq⟩ | ⟨htouches, acceptor, hopen, heq⟩
  · rw [heq] at hfailed
    cases hfailed
  · rw [heq]
    refine ⟨fun _ => ?_, fun _ => ⟨rfl, fun _ => rfl⟩⟩
    by_contra hall
    push Not at hall
    exact hno ⟨hall.1, hall.2.1, by simpa using hall.2.2⟩
  · rw [heq]
    constructor
    · rintro ⟨hsame, -⟩
      have hacceptor : acceptor = s.acceptor := congrArg BaseServer.acceptor hsame
      exact absurd (hacceptor.trans htouches.2.1) hopen
    · rintro (hnone | hopened | hfails)
      · exact absurd hnone htouches.1
      · exact absurd htouches.2.1 hopened
      · rw [htouches.2.2] at hfails
        cases hfails

end Lifecycle

/-! ## 7. A server with one thread -/

/-- A pool of one thread, on any address. -/
def Configuration.oneThread : Configuration := ⟨true, ascii "localhost", 8080, 1⟩

/-- Every call succeeds. -/
def StartOutcomes.good : StartOutcomes where
  resolve _ _ := some ⟨.v4 0, 8080⟩
  opens := true
  setsOption := true
  binds := true
  listens := true
  createsThread _ := true

/-- A run of one event has no other. -/
theorem single_event {pre post : List Event} {e f : Event} (h : [f] = pre ++ e :: post) :
    pre = [] ∧ e = f := by
  cases pre with
  | nil => exact ⟨rfl, (List.cons.inj h).1.symm⟩
  | cons x pre =>
    have hnil := (List.cons.inj h).2
    cases pre with
    | nil => cases hnil
    | cons y pre => cases hnil

/-- `stop` and then the destruction: the thread is joined again, and the destructor throws. -/
theorem destroy_throws_behind_stop :
    ∃ s, Run (BaseServer.step .oneThread .echo .plain) .new [.start .good, .stop] s ∧
      s.destroy.2 = .threw ∧ ¬ JoinedOnce s.destroy.1 := by
  refine ⟨_, rfl, rfl, fun h => ?_⟩
  exact absurd (h _ List.mem_cons_self).2 (by decide)

/-- Without a `stop` the destruction joins the thread. -/
theorem destroy_clean_behind_start :
    ∃ s, Run (BaseServer.step .oneThread .echo .plain) .new [.start .good] s ∧
      s.destroy.2 = .returned ∧ JoinedOnce s.destroy.1 := by
  have hrun : Run (BaseServer.step .oneThread .echo .plain) .new [.start .good]
      (BaseServer.new.start .oneThread .good).1 := rfl
  refine ⟨_, hrun, (destroy_clean_iff .oneThread .echo .plain hrun).mpr ?_⟩
  intro pre e post t hes _ hstop
  obtain ⟨-, he⟩ := single_event hes
  rw [hstop] at he
  cases he

/-- `stop` and then `start`: the server is marked as running, and its thread has left `run`. -/
theorem isRunning_lies_behind_stop :
    ∃ s, Run (BaseServer.step .oneThread .echo .plain) .new [.stop, .start .good] s ∧
      s.isRunning = true ∧ ¬ IsServing s := by
  refine ⟨_, rfl, rfl, fun h => ?_⟩
  exact absurd h.notStopped (by decide)

/-- A first `start` tells the truth. -/
theorem isRunning_honest_behind_start :
    ∃ s, Run (BaseServer.step .oneThread .echo .plain) .new [.start .good] s ∧
      Throughout (BaseServer.step .oneThread .echo .plain) Honest .new [.start .good] := by
  have hrun : Run (BaseServer.step .oneThread .echo .plain) .new [.start .good]
      (BaseServer.new.start .oneThread .good).1 := rfl
  refine ⟨_, hrun, (isRunning_honest_iff .oneThread .echo .plain (by decide) hrun).mpr ?_⟩
  intro pre e post t hes hpre os endpoint he _
  obtain ⟨rfl, rfl⟩ := single_event hes
  rw [Run.nil_iff.mp hpre]
  cases he
  exact ⟨rfl, rfl⟩

/-- A `bind` that fails leaves the acceptor open: no later `start` can succeed, and on a server
    without the failed call the same `start` returns. -/
theorem failed_bind_breaks_start :
    let failed := BaseServer.new.start .oneThread { StartOutcomes.good with binds := false }
    (BaseServer.new.openAcceptor .oneThread { StartOutcomes.good with binds := false }).2 = .threw ∧
      failed.1 ≠ .new ∧ (failed.1.start .oneThread .good).2 = .threw ∧
      (BaseServer.new.start .oneThread .good).2 = .returned := by
  refine ⟨rfl, fun h => ?_, rfl, rfl⟩
  exact absurd (congrArg BaseServer.acceptor h) (by decide)

/-- A resolution that fails leaves the server as it was. -/
theorem failed_resolution_unchanged :
    let several : Configuration := { Configuration.oneThread with singleHostAddress := false }
    let failing : StartOutcomes := { StartOutcomes.good with resolve := fun _ _ => none }
    (BaseServer.new.start several failing).1 = .new := by
  intro several failing
  exact ((failed_start_unchanged_iff several failing .new rfl).mpr (Or.inl rfl)).1

end BoostAsioWebServer
