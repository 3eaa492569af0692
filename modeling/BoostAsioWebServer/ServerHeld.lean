/-
  File:      BoostAsioWebServer/ServerHeld.lean
  Subject:   THREADS HELD BY THEIR PEERS (`SecuredConnection::handleWrite`), and `stop` comes to its
             end as far as they let it.

  `shutdown` of a TLS stream is no asynchronous operation: behind a write that succeeded the thread
  of the handler stays inside the call until the peer has answered `close_notify` or is gone.
  `HeldServer` is the server of ServerThreads.lean with the connection whose peer holds each thread.
  A held thread is given no handler, and `stop` cannot join it. Nothing is assumed of the peers: that
  one lets its thread go is an event, which comes or does not.

  * `held_projects`: the server inside runs as in ServerThreads.lean, so that whatever holds over
    every run there holds here; `heldSound_run`: who is held, and that it takes the TLS transport;
  * `stop_ends`: once `stop` waits no handler begins and no thread comes to be held; until the join
    some thread can go on, unless all that is left is held, and a held thread keeps `stop` from the
    join as long as its peer likes.

  Assumed beyond ServerThreads.lean: `io_service::stop` does not end a call of `shutdown`, and two
  connections do not wait for each other in one strand.
-/
import BoostAsioWebServer.ServerProgress

namespace BoostAsioWebServer

open ByteText Feed Runs

/-! ## 1. The server and its peers -/

/-- The server, and for each thread of the pool the connection whose peer holds it. -/
structure HeldServer where
  server : ThreadedServer
  held : Nat → Option Nat

/-- The constructor. -/
def HeldServer.new : HeldServer := ⟨.new, fun _ => none⟩

/-- An event of the server, or the peer that holds the thread at `k` has answered or is gone. -/
inductive HeldEvent where
  | server (event : ThreadedEvent)
  | peerAnswers (k : Nat)

/-- The thread an event is given to. -/
def ThreadedEvent.thread : ThreadedEvent → Option Nat
  | .accept k _ _ => some k
  | .complete k _ _ => some k
  | .proceed k => some k
  | _ => none

/-- A held thread takes no event, and `stop` joins the threads when none of the pool is held. -/
def HeldServer.admits (s : HeldServer) : ThreadedEvent → Bool
  | .join => (List.range s.server.base.threads.length).all fun k => (s.held k).isNone
  | e => e.thread.all fun k => (s.held k).isNone

/-- The threads held behind an event: a write of a secured connection that succeeded leads its
    thread into `shutdown`. -/
def holdBehind (transport : Transport) (held : Nat → Option Nat) : ThreadedEvent → Nat → Option Nat
  | .complete k index (.write false) =>
    match transport with
    | .plain => held
    | .secured => Function.update held k (some index)
  | _ => held

section Held

variable (configuration : Configuration) (env : External) (cors : CORSConfiguration)
  (transport : Transport)

/-- **One event.** -/
def HeldServer.step (s : HeldServer) : HeldEvent → Option HeldServer
  | .server e =>
    if s.admits e then
      (s.server.step configuration env cors transport e).map fun server =>
        ⟨server, holdBehind transport s.held e⟩
    else none
  | .peerAnswers k =>
    if s.server.base.crashed = false ∧ s.held k ≠ none then
      some { s with held := Function.update s.held k none }
    else none

variable {configuration env cors transport}

/-- The cases of an event. -/
theorem heldStep_cases {s s' : HeldServer} {e : HeldEvent}
    (h : s.step configuration env cors transport e = some s') :
    (∃ f server, e = .server f ∧ s.admits f = true ∧
      s.server.step configuration env cors transport f = some server ∧
      s' = ⟨server, holdBehind transport s.held f⟩) ∨
    (∃ k, e = .peerAnswers k ∧ s.server.base.crashed = false ∧ s.held k ≠ none ∧
      s' = { s with held := Function.update s.held k none }) := by
  cases e with
  | server f =>
    simp only [HeldServer.step] at h
    split at h
    · rename_i hadmits
      obtain ⟨server, hserver, rfl⟩ := Option.map_eq_some_iff.mp h
      exact Or.inl ⟨f, server, rfl, hadmits, hserver, rfl⟩
    · cases h
  | peerAnswers k =>
    simp only [HeldServer.step] at h
    split at h
    · rename_i hguard
      exact Or.inr ⟨k, rfl, hguard.1, hguard.2, (Option.some.inj h).symm⟩
    · cases h

/-- The events of the server among those of the server and its peers. -/
def serverEvents (es : List HeldEvent) : List ThreadedEvent :=
  es.filterMap fun
    | .server e => some e
    | .peerAnswers _ => none

theorem serverEvents_append (es fs : List HeldEvent) :
    serverEvents (es ++ fs) = serverEvents es ++ serverEvents fs :=
  List.filterMap_append

/-- **The server inside runs as one without peers**: whatever holds over every run of the threads
    holds over every run with peers. -/
theorem held_projects {es : List HeldEvent} {s : HeldServer}
    (hrun : Run (HeldServer.step configuration env cors transport) .new es s) :
    Run (ThreadedServer.step configuration env cors transport) .new (serverEvents es) s.server := by
  refine Run.history (I := fun es s => Run (ThreadedServer.step configuration env cors transport)
    .new (serverEvents es) s.server) (fun es s e s' h hstep => ?_) (Run.nil_iff.mpr rfl) hrun
  rw [serverEvents_append]
  rcases heldStep_cases hstep with ⟨f, server, rfl, -, hserver, rfl⟩ | ⟨k, rfl, -, -, rfl⟩
  · exact Run.snoc_iff.mpr ⟨_, h, hserver⟩
  · exact Run.append_iff.mpr ⟨_, h, Run.nil_iff.mpr rfl⟩

/-! ## 2. Who is held -/

/-- An event touches no thread but the one it is given to, and takes none from the pool. -/
theorem threadedStep_frame {s s' : ThreadedServer} {e : ThreadedEvent}
    (hstep : s.step configuration env cors transport e = some s') :
    s.base.threads.length ≤ s'.base.threads.length ∧
      ∀ k, e.thread ≠ some k → s'.inside k = s.inside k := by
  have hother {k j : Nat} {job : Option Job} {inside : Nat → Option Job}
      (hinside : inside = Function.update s.inside k job) (hj : some k ≠ some j) :
      inside j = s.inside j := by
    rw [hinside]
    exact Function.update_of_ne (fun e => hj (congrArg some e.symm)) _ _
  cases (threadedStep_cases hstep).2 with
  | registerWebService webService => exact ⟨Nat.le_refl _, fun _ _ => rfl⟩
  | start os =>
    unfold ThreadedServer.start
    rcases openAcceptor_cases configuration os s.base with
      ⟨endpoint, -, heq⟩ | ⟨-, heq⟩ | ⟨-, acceptor, -, heq⟩
    all_goals
      rw [heq]
      exact ⟨Nat.le_refl _, fun _ _ => rfl⟩
  | createThread os i =>
    unfold ThreadedServer.createThread
    split
    · split
      · refine ⟨?_, fun _ _ => rfl⟩
        rw [List.length_append]
        exact Nat.le_add_right _ _
      · exact ⟨Nat.le_refl _, fun _ _ => rfl⟩
    · exact ⟨Nat.le_refl _, fun _ _ => rfl⟩
  | stop => exact ⟨Nat.le_refl _, fun _ _ => rfl⟩
  | join => exact ⟨(stop_length s.base).ge, fun _ _ => rfl⟩
  | accept k index failed =>
    refine ⟨?_, fun j hj => hother rfl hj⟩
    rw [(beginAccept_frame transport s k index failed).1.threads]
  | complete k index completion c hidle =>
    have hframe : HandlerFrame s (s.beginHandler env cors transport k index c completion) k :=
      handlerFrame_begin (ThreadedServer.idle_iff hidle).1
    obtain ⟨job, hinside, -⟩ := hframe.inside
    exact ⟨by rw [hframe.threads], fun j hj => hother hinside hj⟩
  | proceedAccept k hk =>
    unfold ThreadedServer.proceedAccept
    split
    · exact ⟨Nat.le_refl _, fun j hj => hother rfl hj⟩
    · exact ⟨Nat.le_refl _, fun j hj => hother rfl hj⟩
  | proceedRead k index loop c _ hk _ hproceed =>
    have hframe := handlerFrame_proceed hproceed
    obtain ⟨job, hinside, -⟩ := hframe.inside
    exact ⟨by rw [hframe.threads], fun j hj => hother hinside hj⟩

/-- What the handlers leave alone. -/
structure LifecycleKept (s s' : ThreadedServer) : Prop where
  threads : s'.base.threads = s.base.threads
  ioStopped : s'.base.ioStopped = s.base.ioStopped
  acceptor : s'.base.acceptor = s.base.acceptor
  call : s'.call = s.call

/-- What a thread is given leaves the lifecycle alone. -/
theorem lifecycleKept_step {s s' : ThreadedServer} {e : ThreadedEvent} (he : e.thread ≠ none)
    (hstep : s.step configuration env cors transport e = some s') : LifecycleKept s s' := by
  cases (threadedStep_cases hstep).2 with
  | registerWebService webService => exact absurd rfl he
  | start os => exact absurd rfl he
  | createThread os i => exact absurd rfl he
  | stop => exact absurd rfl he
  | join => exact absurd rfl he
  | accept k index failed =>
    have hsame := (beginAccept_frame transport s k index failed).1
    exact ⟨hsame.threads, hsame.ioStopped, hsame.acceptor, rfl⟩
  | complete k index completion c hidle =>
    have hframe : HandlerFrame s (s.beginHandler env cors transport k index c completion) k :=
      handlerFrame_begin (ThreadedServer.idle_iff hidle).1
    exact ⟨hframe.threads, hframe.ioStopped, hframe.acceptor, hframe.call⟩
  | proceedAccept k hk =>
    unfold ThreadedServer.proceedAccept
    split
    · exact ⟨rfl, rfl, rfl, rfl⟩
    · exact ⟨rfl, rfl, rfl, rfl⟩
  | proceedRead k index loop c _ hk hc hproceed =>
    have hframe := handlerFrame_proceed hproceed
    exact ⟨hframe.threads, hframe.ioStopped, hframe.acceptor, hframe.call⟩

theorem lifecycleKept_run {s s' : ThreadedServer} {fs : List ThreadedEvent}
    (hfs : ∀ f ∈ fs, f.thread ≠ none)
    (hrun : Run (ThreadedServer.step configuration env cors transport) s fs s') :
    LifecycleKept s s' := by
  induction fs generalizing s with
  | nil =>
    rw [Run.nil_iff.mp hrun]
    exact ⟨rfl, rfl, rfl, rfl⟩
  | cons f fs ih =>
    obtain ⟨t, ht, hrest⟩ := Run.cons_iff.mp hrun
    have hstep := lifecycleKept_step (hfs f List.mem_cons_self) ht
    have hkept := ih (fun g hg => hfs g (List.mem_cons_of_mem f hg)) hrest
    exact ⟨hkept.threads.trans hstep.threads, hkept.ioStopped.trans hstep.ioStopped,
      hkept.acceptor.trans hstep.acceptor, hkept.call.trans hstep.call⟩

/-- The handler of a write has no access left to make. -/
theorem inside_write {s s' : ThreadedServer} {k index : Nat} {failed : Bool}
    (hstep : s.step configuration env cors transport (.complete k index (.write failed)) = some s') :
    k < s'.base.threads.length ∧ s'.inside k = none := by
  cases (threadedStep_cases hstep).2 with
  | complete _ _ _ c hidle => exact (ThreadedServer.idle_iff hidle).symm

/-- Who is held: a thread of the pool, inside no handler that has an access left to make, and that
    by a secured connection. -/
structure HeldSound (transport : Transport) (s : HeldServer) : Prop where
  known : ∀ k, s.held k ≠ none → k < s.server.base.threads.length
  outside : ∀ k, s.held k ≠ none → s.server.inside k = none
  secured : ∀ k, s.held k ≠ none → transport = .secured

/-- The threads held behind an event were held before, or it is the end of a secured write. -/
theorem holdBehind_cases {held : Nat → Option Nat} {e : ThreadedEvent} {k : Nat}
    (h : holdBehind transport held e k ≠ none) :
    held k ≠ none ∨ transport = .secured ∧ ∃ index, e = .complete k index (.write false) := by
  unfold holdBehind at h
  split at h
  · rename_i j index
    cases transport with
    | plain => exact Or.inl h
    | secured =>
      by_cases hk : k = j
      · exact Or.inr ⟨rfl, index, by rw [hk]⟩
      · simp only [Function.update_of_ne hk] at h
        exact Or.inl h
  · exact Or.inl h

/-- Who is held by another thread's event is held as before. -/
theorem holdBehind_other {held : Nat → Option Nat} {e : ThreadedEvent} {k : Nat}
    (h : e.thread ≠ some k) : holdBehind transport held e k = held k := by
  unfold holdBehind
  split
  · cases transport with
    | plain => rfl
    | secured => exact Function.update_of_ne (fun hk => h (congrArg some hk.symm)) _ _
  · rfl

/-- A held thread takes no event. -/
theorem HeldServer.thread_of_admits {s : HeldServer} {e : ThreadedEvent} {k : Nat}
    (hadmits : s.admits e = true) (hk : s.held k ≠ none) : e.thread ≠ some k := by
  intro hthread
  have hfree : (s.held k).isNone = true := by
    cases e with
    | accept j index failed => cases hthread; exact hadmits
    | complete j index completion => cases hthread; exact hadmits
    | proceed j => cases hthread; exact hadmits
    | _ => cases hthread
  exact hk (Option.isNone_iff_eq_none.mp hfree)

/-- Every event keeps it. -/
theorem heldSound_step {s s' : HeldServer} {e : HeldEvent} (h : HeldSound transport s)
    (hstep : s.step configuration env cors transport e = some s') : HeldSound transport s' := by
  rcases heldStep_cases hstep with ⟨f, server, rfl, hadmits, hserver, rfl⟩ | ⟨k, rfl, -, -, rfl⟩
  · obtain ⟨hlength, hinside⟩ := threadedStep_frame hserver
    refine ⟨fun k hk => ?_, fun k hk => ?_, fun k hk => ?_⟩
    · rcases holdBehind_cases hk with hk | ⟨-, index, rfl⟩
      · exact (h.known k hk).trans_le hlength
      · exact (inside_write hserver).1
    · rcases holdBehind_cases hk with hk | ⟨-, index, rfl⟩
      · exact (hinside k (s.thread_of_admits hadmits hk)).trans (h.outside k hk)
      · exact (inside_write hserver).2
    · rcases holdBehind_cases hk with hk | ⟨hsecured, -⟩
      · exact h.secured k hk
      · exact hsecured
  · have hbefore {j : Nat} (hj : Function.update s.held k none j ≠ none) : s.held j ≠ none := by
      by_cases hjk : j = k
      · rw [hjk, Function.update_self] at hj
        exact absurd rfl hj
      · rwa [Function.update_of_ne hjk] at hj
    exact ⟨fun j hj => h.known j (hbefore hj), fun j hj => h.outside j (hbefore hj),
      fun j hj => h.secured j (hbefore hj)⟩

theorem heldSound_run {es : List HeldEvent} {s : HeldServer}
    (hrun : Run (HeldServer.step configuration env cors transport) .new es s) :
    HeldSound transport s :=
  Run.invariant (fun _ _ _ h hstep => heldSound_step h hstep)
    ⟨fun _ h => absurd rfl h, fun _ h => absurd rfl h, fun _ h => absurd rfl h⟩ hrun

/-- **A held thread stays held until its peer answers**, whatever happens meanwhile. -/
theorem held_stays {s s' : HeldServer} {fs : List HeldEvent} {k : Nat} (hk : s.held k ≠ none)
    (hfs : Run (HeldServer.step configuration env cors transport) s fs s')
    (hsilent : .peerAnswers k ∉ fs) : s'.held k = s.held k := by
  induction fs generalizing s with
  | nil => rw [Run.nil_iff.mp hfs]
  | cons e fs ih =>
    obtain ⟨t, ht, hrest⟩ := Run.cons_iff.mp hfs
    have hkept : t.held k = s.held k := by
      rcases heldStep_cases ht with ⟨f, server, rfl, hadmits, -, rfl⟩ | ⟨j, rfl, -, -, rfl⟩
      · exact holdBehind_other (s.thread_of_admits hadmits hk)
      · refine Function.update_of_ne (fun hkj => hsilent ?_) _ _
        rw [hkj]
        exact List.mem_cons_self
    rw [← hkept] at hk ⊢
    exact ih hk hrest fun hmem => hsilent (List.mem_cons_of_mem e hmem)

/-- And keeps `stop` from joining the threads. -/
theorem HeldSound.no_join {s : HeldServer} (h : HeldSound transport s) {k : Nat}
    (hk : s.held k ≠ none) : s.step configuration env cors transport (.server .join) = none := by
  have hrefused : s.admits .join = false := by
    rw [← Bool.not_eq_true]
    intro hall
    have hfree := List.all_eq_true.mp hall k (List.mem_range.mpr (h.known k hk))
    exact hk (Option.isNone_iff_eq_none.mp hfree)
  simp only [HeldServer.step, hrefused, Bool.false_eq_true, if_false]

/-- A thread that can go on is not held. -/
theorem HeldSound.admits_proceed {s : HeldServer} (h : HeldSound transport s) {k : Nat}
    {t : ThreadedServer}
    (hstep : s.server.step configuration env cors transport (.proceed k) = some t) :
    s.admits (.proceed k) = true := by
  refine Option.isNone_iff_eq_none.mpr ?_
  by_contra hheld
  have hinside := h.outside k hheld
  cases (threadedStep_cases hstep).2 with
  | proceedAccept _ hjob =>
    rw [hinside] at hjob
    cases hjob
  | proceedRead _ _ _ _ _ hjob =>
    rw [hinside] at hjob
    cases hjob

/-! ## 3. `stop` -/

/-- The threads of the pool that are held. -/
def HeldServer.heldThreads (s : HeldServer) : Finset Nat :=
  (Finset.range s.server.base.threads.length).filter fun k => s.held k ≠ none

/-- An access of a thread. -/
def HeldEvent.isProceed : HeldEvent → Bool
  | .server e => e.isProceed
  | .peerAnswers _ => false

/-- A peer lets its thread go. -/
def HeldEvent.isAnswer : HeldEvent → Bool
  | .server _ => false
  | .peerAnswers _ => true

/-- `stop` is waiting for the threads of a reachable server. -/
structure HeldStopping (env : External) (cors : CORSConfiguration) (transport : Transport)
    (s : HeldServer) : Prop where
  stopping : Stopping env cors transport s.server
  sound : HeldSound transport s

/-- While `stop` waits nobody comes to be held. -/
theorem HeldStopping.events {s s' : HeldServer} {e : HeldEvent}
    (h : HeldStopping env cors transport s)
    (hstep : s.step configuration env cors transport e = some s') :
    (∃ f, e = .server f ∧ s'.held = s.held ∧
      s.server.step configuration env cors transport f = some s'.server ∧
      (f = .join ∨ (∃ k, f = .proceed k) ∨ ∃ webService, f = .registerWebService webService)) ∨
    (∃ k, e = .peerAnswers k ∧ s.held k ≠ none ∧
      s' = { s with held := Function.update s.held k none }) := by
  rcases heldStep_cases hstep with ⟨f, server, rfl, -, hserver, rfl⟩ | ⟨k, rfl, -, hk, rfl⟩
  · refine Or.inl ⟨f, rfl, ?_, hserver, ?_⟩
    · rcases h.stopping.events hserver with rfl | ⟨k, rfl⟩ | ⟨webService, rfl, -⟩
      all_goals rfl
    · exact (h.stopping.events hserver).imp_right fun he => he.imp_right fun ⟨webService, hf, _⟩ =>
        ⟨webService, hf⟩
  · exact Or.inr ⟨k, rfl, hk, rfl⟩

/-- **While `stop` waits every access leaves fewer to make, and every answer fewer threads held.** -/
theorem heldStopping_step {s s' : HeldServer} {e : HeldEvent}
    (h : HeldStopping env cors transport s) (he : e ≠ .server .join)
    (hstep : s.step configuration env cors transport e = some s') :
    HeldStopping env cors transport s' ∧
      s'.server.left + (if e.isProceed then 1 else 0) ≤ s.server.left ∧
      s'.heldThreads.card + (if e.isAnswer then 1 else 0) ≤ s.heldThreads.card := by
  have hsound := heldSound_step h.sound hstep
  rcases h.events hstep with ⟨f, rfl, hheld, hserver, -⟩ | ⟨k, rfl, hk, rfl⟩
  · obtain ⟨hstopping, hleft⟩ := stopping_step h.stopping (fun hf => he (congrArg _ hf)) hserver
    refine ⟨⟨hstopping, hsound⟩, hleft, ?_⟩
    have hsame : s'.heldThreads = s.heldThreads := by
      -- the pool may only have grown, and a held thread is of the old one
      ext k
      simp only [HeldServer.heldThreads, Finset.mem_filter, Finset.mem_range, hheld]
      refine ⟨fun hmem => ⟨h.sound.known k hmem.2, hmem.2⟩, fun hmem => ⟨?_, hmem.2⟩⟩
      exact hmem.1.trans_le (threadedStep_frame hserver).1
    rw [hsame]
    exact Nat.le_refl _
  · refine ⟨⟨h.stopping, hsound⟩, Nat.le_refl _, ?_⟩
    have hless : HeldServer.heldThreads { s with held := Function.update s.held k none } ⊂
        s.heldThreads := by
      rw [Finset.ssubset_iff_of_subset]
      · refine ⟨k, Finset.mem_filter.mpr ⟨Finset.mem_range.mpr (h.sound.known k hk), hk⟩, ?_⟩
        simp [HeldServer.heldThreads]
      · intro j hj
        obtain ⟨hj, hheld⟩ := Finset.mem_filter.mp hj
        refine Finset.mem_filter.mpr ⟨hj, ?_⟩
        by_cases hjk : j = k
        · rw [hjk]
          exact hk
        · have hbefore : Function.update s.held k none j ≠ none := hheld
          rwa [Function.update_of_ne hjk] at hbefore
    exact Finset.card_lt_card hless

/-- Until `stop` can join the threads, one of them has an access to make, or all that are left are
    held. -/
theorem HeldStopping.goesOn {s : HeldServer} (h : HeldStopping env cors transport s)
    (hcrashed : s.server.base.crashed = false) :
    (s.step configuration env cors transport (.server .join)).isSome = true ∨
      (∃ k, (s.step configuration env cors transport (.server (.proceed k))).isSome = true) ∨
      transport = .secured ∧ s.server.allOutside = true ∧ ∃ k, s.held k ≠ none := by
  have hstep {f : ThreadedEvent} (hadmits : s.admits f = true)
      (hf : (s.server.step configuration env cors transport f).isSome = true) :
      (s.step configuration env cors transport (.server f)).isSome = true := by
    simp only [HeldServer.step, hadmits, if_true, Option.isSome_map]
    exact hf
  have hserver : (s.server.step configuration env cors transport .join).isSome = true ∨
      ∃ k, (s.server.step configuration env cors transport (.proceed k)).isSome = true :=
    stopping_goesOn h.stopping hcrashed
  rcases hserver with hjoin | ⟨k, hk⟩
  · by_cases hadmits : s.admits .join = true
    · exact Or.inl (hstep hadmits hjoin)
    · obtain ⟨t, ht⟩ := Option.isSome_iff_exists.mp hjoin
      have houtside : s.server.allOutside = true := by
        cases (threadedStep_cases ht).2 with
        | join _ hall => exact hall
      have hheld : ∃ k, s.held k ≠ none := by
        by_contra hnone
        push Not at hnone
        exact hadmits (List.all_eq_true.mpr fun k _ => by rw [hnone k]; rfl)
      obtain ⟨k, hk⟩ := hheld
      exact Or.inr (Or.inr ⟨h.sound.secured k hk, houtside, k, hk⟩)
  · obtain ⟨t, ht⟩ := Option.isSome_iff_exists.mp hk
    exact Or.inr (Or.inl ⟨k, hstep (h.sound.admits_proceed ht) hk⟩)

variable (configuration env cors transport) in
/-- **`stop` comes to its end as far as the peers let it.** From every reachable state in which it
    waits, whatever happens until it can join the threads: no handler begins, the threads make
    `left` accesses at most, nobody comes to be held, and as long as the process has not crashed one
    of the threads can go on or all can be joined, or the transport is TLS and peers hold all that
    are left. A thread whose peer never answers keeps `stop` from the join. -/
theorem stop_ends {es : List HeldEvent} {s : HeldServer}
    (hrun : Run (HeldServer.step configuration env cors transport) .new es s)
    (hcall : s.server.call = .stopping) {fs : List HeldEvent} {s' : HeldServer}
    (hfs : Run (HeldServer.step configuration env cors transport) s fs s')
    (hjoin : ∀ e ∈ fs, e ≠ .server .join) :
    fs.countP HeldEvent.isProceed + s'.server.left ≤ s.server.left ∧
    fs.countP HeldEvent.isAnswer + s'.heldThreads.card ≤ s.heldThreads.card ∧
    (∀ e t, s'.step configuration env cors transport e = some t →
      (∃ f, e = .server f ∧
        (f = .join ∨ (∃ k, f = .proceed k) ∨ ∃ webService, f = .registerWebService webService)) ∨
      ∃ k, e = .peerAnswers k ∧ s'.held k ≠ none) ∧
    (s'.server.base.crashed = false →
      (s'.step configuration env cors transport (.server .join)).isSome = true ∨
        (∃ k, (s'.step configuration env cors transport (.server (.proceed k))).isSome = true) ∨
        transport = .secured ∧ s'.server.allOutside = true ∧ ∃ k, s'.held k ≠ none) ∧
    ∀ k, s.held k ≠ none → .peerAnswers k ∉ fs →
      s'.step configuration env cors transport (.server .join) = none := by
  have hserver := held_projects hrun
  have hstopping : HeldStopping env cors transport s :=
    ⟨⟨⟨_, threaded_run hserver⟩, hcall, stopping_ioStopped hserver hcall⟩, heldSound_run hrun⟩
  have hstep {s s' : HeldServer} {e : HeldEvent} (h : HeldStopping env cors transport s)
      (he : e ≠ .server .join) (he' : s.step configuration env cors transport e = some s') :=
    heldStopping_step h he he'
  obtain ⟨hs', hleft⟩ := Run.rank (fun _ _ _ h he he' => ⟨(hstep h he he').1, (hstep h he he').2.1⟩)
    hstopping hfs hjoin
  obtain ⟨-, hheld⟩ := Run.rank (fun _ _ _ h he he' => ⟨(hstep h he he').1, (hstep h he he').2.2⟩)
    hstopping hfs hjoin
  refine ⟨hleft, hheld, fun e t hstep => ?_, hs'.goesOn, fun k hk hsilent => ?_⟩
  · rcases hs'.events hstep with ⟨f, rfl, -, -, hf⟩ | ⟨k, rfl, hk, -⟩
    · exact Or.inl ⟨f, rfl, hf⟩
    · exact Or.inr ⟨k, rfl, hk⟩
  · refine hs'.sound.no_join (k := k) ?_
    rw [held_stays hk hfs hsilent]
    exact hk

end Held

/-! ## 4. A client that does not answer -/

/-- A client has its reply and does not answer the shutdown: `stop` cannot join the only thread
    before it does. -/
theorem stop_ends_held :
    let data : ReadData := ⟨ascii "GET /a HTTP/1.0\r\n\r\n", by decide, by decide⟩
    let es : List HeldEvent :=
      [.server (.start .good), .server .createThread, .server .createThread,
        .server (.accept 0 0 false), .server (.proceed 0),
        .server (.complete 0 0 (.handshake false)), .server (.complete 0 0 (.read data)),
        .server (.proceed 0), .server (.complete 0 0 (.write false))]
    ∃ s s', Run (HeldServer.step .oneThread .reference .off .secured) .new
        (es ++ [.server .stop]) s ∧
      s.step .oneThread .reference .off .secured (.server .join) = none ∧
      Run (HeldServer.step .oneThread .reference .off .secured) s [.peerAnswers 0] s' ∧
      s'.heldThreads.card + 1 ≤ s.heldThreads.card ∧
      (s'.step .oneThread .reference .off .secured (.server .join)).isSome = true := by
  intro data es
  have hend : ((es ++ [HeldEvent.server .stop]).foldlM
      (HeldServer.step .oneThread .reference .off .secured) HeldServer.new).any (fun s =>
        (s.held 0).isSome && (s.step .oneThread .reference .off .secured (.peerAnswers 0)).any
          fun s' => (s'.step .oneThread .reference .off .secured (.server .join)).isSome) = true := by
    decide +kernel
  obtain ⟨s, hrun, hs⟩ := (Option.any_eq_true _ _).mp hend
  obtain ⟨hheld, hs⟩ := (Bool.and_eq_true _ _).mp hs
  obtain ⟨s', hanswer, hjoin⟩ := (Option.any_eq_true _ _).mp hs
  have hcall : s.server.call = .stopping := by
    obtain ⟨t, -, hstop⟩ := Run.snoc_iff.mp hrun
    rcases heldStep_cases hstop with ⟨f, server, hf, -, hserver, rfl⟩ | ⟨k, hk, -⟩
    · cases hf
      cases (threadedStep_cases hserver).2 with
      | stop => rfl
    · cases hk
  have hstays := stop_ends .oneThread .reference .off .secured hrun hcall (Run.nil_iff.mpr rfl)
    fun e he => absurd he List.not_mem_nil
  have hanswered : Run (HeldServer.step .oneThread .reference .off .secured) s [.peerAnswers 0] s' :=
    Run.cons_iff.mpr ⟨s', hanswer, Run.nil_iff.mpr rfl⟩
  have hends := stop_ends .oneThread .reference .off .secured hrun hcall hanswered fun e he => by
    rw [List.mem_singleton.mp he]
    exact fun h => by cases h
  refine ⟨s, s', hrun, hstays.2.2.2.2 0 (Option.isSome_iff_ne_none.mp hheld) List.not_mem_nil,
    hanswered, ?_, hjoin⟩
  rw [Nat.add_comm]
  exact hends.2.1

end BoostAsioWebServer
