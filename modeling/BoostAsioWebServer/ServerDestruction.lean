/-
  File:      BoostAsioWebServer/ServerDestruction.lean
  Subject:   THE DESTRUCTION OF A SERVER while its threads run (`BaseServer::~BaseServer`,
             `~Server`, `~SecuredServer`).

  The destructor of the derived class comes first, and the handlers go on meanwhile. Behind it
  `buildConnection` is pure virtual; only then `~BaseServer` calls `stop`, whose `join` may throw.
  A call of the pure virtual function ends the process, and so does an exception that leaves a
  destructor or a thread's function.

  `destruction_safe_iff`: no interleaving ends the process exactly where the server has never
  served: no thread was created, or only behind a `stop`.
-/
import BoostAsioWebServer.ServerProgress
import BoostAsioWebServer.ServerServing

namespace BoostAsioWebServer

open ByteText Feed Runs

/-! ## 1. The machine -/

/-- Where a destruction stands: behind the destructor of the derived class, behind
    `io_service::stop`, at its end, or the process has ended. -/
inductive DestructionStage where
  | derived
  | joining
  | finished
  | terminated
  deriving DecidableEq

/-- A server under destruction. -/
structure Destruction where
  server : ThreadedServer
  stage : DestructionStage

/-- An event of a destruction: one of the pool's threads, or the next part of the destructor. -/
inductive DestructionEvent where
  | accept (k index : Nat) (failed : Bool)
  | complete (k index : Nat) (completion : Completion)
  | proceed (k : Nat)
  | stop
  | join

/-- The event of a thread as one of the server. -/
def DestructionEvent.ofThread : DestructionEvent → Option ThreadedEvent
  | .accept k index failed => some (.accept k index failed)
  | .complete k index completion => some (.complete k index completion)
  | .proceed k => some (.proceed k)
  | _ => none

/-- The next access of the thread is the call of `buildConnection`. -/
def ThreadedServer.callsBuildConnection (s : ThreadedServer) (e : ThreadedEvent) : Bool :=
  match e with
  | .proceed k =>
    match s.inside k with
    | some .accepting => s.base.running
    | _ => false
  | _ => false

section Destroying

variable (configuration : Configuration) (env : External) (cors : CORSConfiguration)
  (transport : Transport)

/-- A thread moves: a call of `buildConnection` or an exception ends the process. -/
def Destruction.moveThread (d : Destruction) (e : ThreadedEvent) : Option Destruction :=
  if d.server.callsBuildConnection e then some { d with stage := .terminated }
  else
    (d.server.step configuration env cors transport e).map fun s =>
      ⟨s, if s.base.crashed then .terminated else d.stage⟩

/-- **One event.** Behind its end nothing follows. -/
def Destruction.step (d : Destruction) (e : DestructionEvent) : Option Destruction :=
  match d.stage with
  | .finished => none
  | .terminated => none
  | stage =>
    match e with
    | .stop =>
      if stage = .derived then
        some ⟨{ d.server with base := { d.server.base with ioStopped := true } }, .joining⟩
      else none
    | .join =>
      if stage = .joining ∧ d.server.allOutside = true then
        match d.server.base.stop with
        | (base, .returned) => some ⟨{ d.server with base := base }, .finished⟩
        | (base, .threw) => some ⟨{ d.server with base := base }, .terminated⟩
      else none
    | e => e.ofThread.bind (d.moveThread configuration env cors transport)

/-- The destruction of a server begins: the destructor of the derived class has run. -/
def ThreadedServer.destroy (s : ThreadedServer) : Destruction := ⟨s, .derived⟩

/-- **No interleaving of the destruction ends the process.** -/
def SafelyDestroyed (s : ThreadedServer) : Prop :=
  ∀ es d, Run (Destruction.step configuration env cors transport) s.destroy es d →
    d.stage ≠ .terminated

/-- The server has never served: it has no thread, or was stopped before it had one. -/
def NeverServed (s : ThreadedServer) : Prop :=
  s.base.threads = [] ∨ s.base.ioStopped = true ∧ ∀ t ∈ s.base.threads, t.joinable = true

/-- The cases of an event: a thread moves, `stop` begins, or it is over. -/
inductive DestructionCase (configuration : Configuration) (env : External)
    (cors : CORSConfiguration) (transport : Transport) (d : Destruction) :
    DestructionEvent → Destruction → Prop where
  | thread {e : DestructionEvent} {d' : Destruction} (e' : ThreadedEvent)
      (he : e.ofThread = some e')
      (hmove : d.moveThread configuration env cors transport e' = some d') :
      DestructionCase configuration env cors transport d e d'
  | stop : DestructionCase configuration env cors transport d .stop
      ⟨{ d.server with base := { d.server.base with ioStopped := true } }, .joining⟩
  | returned (base : BaseServer) (hstop : d.server.base.stop = (base, .returned)) :
      DestructionCase configuration env cors transport d .join
        ⟨{ d.server with base := base }, .finished⟩
  | threw (base : BaseServer) (hstop : d.server.base.stop = (base, .threw)) :
      DestructionCase configuration env cors transport d .join
        ⟨{ d.server with base := base }, .terminated⟩

variable {configuration env cors transport} in
/-- **An event is one of the cases**, of a destruction that is not at its end. -/
theorem destructionStep_cases {d d' : Destruction} {e : DestructionEvent}
    (h : d.step configuration env cors transport e = some d') :
    d.stage ≠ .finished ∧ DestructionCase configuration env cors transport d e d' := by
  unfold Destruction.step at h
  split at h
  · cases h
  · cases h
  · rename_i hfinished _
    refine ⟨hfinished, ?_⟩
    split at h
    · split at h
      · rw [← Option.some.inj h]
        exact .stop
      · cases h
    · split at h
      · split at h
        · rename_i base hstop
          rw [← Option.some.inj h]
          exact .returned base hstop
        · rename_i base hstop
          rw [← Option.some.inj h]
          exact .threw base hstop
      · cases h
    · obtain ⟨e', he, hmove⟩ := Option.bind_eq_some_iff.mp h
      exact .thread e' he hmove

end Destroying

/-! ## 2. A server that has never served -/

section Lifecycle

variable {configuration : Configuration} {env : External} {cors : CORSConfiguration}
  {transport : Transport}

/-- The destruction is over, or no thread is inside a handler and none will be. -/
def Unthreatened (d : Destruction) : Prop :=
  d.stage = .finished ∨
    d.stage ≠ .terminated ∧ (∀ k, d.server.inside k = none) ∧ NeverServed d.server

/-- A server that has never served has no idle thread. -/
theorem NeverServed.idle {s : ThreadedServer} (h : NeverServed s) (k : Nat) : s.idle k = false := by
  unfold ThreadedServer.idle
  rcases h with hnone | ⟨hio, -⟩
  · rw [hnone]
    simp
  · rw [hio]
    rfl

/-- All threads of such a server are joinable, where it has any. -/
theorem NeverServed.joinable {s : ThreadedServer} (h : NeverServed s) :
    ∀ t ∈ s.base.threads, t.joinable = true := by
  rcases h with hnone | ⟨-, hall⟩
  · rw [hnone]
    exact fun t ht => absurd ht List.not_mem_nil
  · exact hall

/-- No thread of such a server moves. -/
theorem Unthreatened.still {d : Destruction} {e : ThreadedEvent} {e' : DestructionEvent}
    (he : e'.ofThread = some e) (hinside : ∀ k, d.server.inside k = none)
    (hnever : NeverServed d.server) : d.moveThread configuration env cors transport e = none := by
  have hidle := hnever.idle
  unfold Destruction.moveThread
  cases e' with
  | accept k index failed =>
    cases he
    simp only [ThreadedServer.callsBuildConnection, Bool.false_eq_true, if_false,
      ThreadedServer.step, hidle, false_and, and_false, Option.map_none]
  | complete k index completion =>
    cases he
    simp only [ThreadedServer.callsBuildConnection, Bool.false_eq_true, if_false,
      ThreadedServer.step, hidle, and_false, Option.map_none]
  | proceed k =>
    cases he
    simp only [ThreadedServer.callsBuildConnection, hinside, Bool.false_eq_true, if_false,
      ThreadedServer.step]
    split
    · rfl
    · rfl
  | stop => cases he
  | join => cases he

theorem unthreatened_step {d d' : Destruction} {e : DestructionEvent} (h : Unthreatened d)
    (hstep : d.step configuration env cors transport e = some d') : Unthreatened d' := by
  obtain ⟨hstage, hcase⟩ := destructionStep_cases hstep
  obtain ⟨-, hinside, hnever⟩ := h.resolve_left hstage
  cases hcase with
  | thread e' he hmove =>
    rw [Unthreatened.still he hinside hnever] at hmove
    cases hmove
  | stop => exact Or.inr ⟨fun e => (by cases e), hinside, hnever.imp_right fun h => ⟨rfl, h.2⟩⟩
  | returned base hstop => exact Or.inl rfl
  | threw base hstop =>
    rw [stop_returns hnever.joinable] at hstop
    cases congrArg Prod.snd hstop

/-! ## 3. A server that has served -/

/-- `join` throws at a thread that is not joinable. -/
theorem joinAll_threw {ts : List Thread} (h : ∃ t ∈ ts, t.joinable = false) :
    (joinAll ts).2 = .threw := by
  induction ts with
  | nil =>
    obtain ⟨t, ht, -⟩ := h
    cases ht
  | cons u ts ih =>
    obtain ⟨t, ht, hjoined⟩ := h
    unfold joinAll
    cases hu : u.joinable with
    | false => rfl
    | true =>
      rcases List.mem_cons.mp ht with rfl | ht
      · rw [hu] at hjoined
        cases hjoined
      · exact ih ⟨t, ht, hjoined⟩

theorem stop_threw {s : BaseServer} (h : ∃ t ∈ s.threads, t.joinable = false) :
    s.stop.2 = .threw := by
  obtain ⟨t, ht, hjoined⟩ := h
  have hthrew : (joinAll (s.threads.map Thread.leave)).2 = .threw :=
    joinAll_threw ⟨t.leave, List.mem_map_of_mem ht, hjoined⟩
  unfold BaseServer.stop
  simp only [hthrew]

/-- The process can end from here, behind the destructor of the derived class. -/
def Threatened (configuration : Configuration) (env : External) (cors : CORSConfiguration)
    (transport : Transport) (s : ThreadedServer) : Prop :=
  ∃ es d, Run (Destruction.step configuration env cors transport) s.destroy es d ∧
    d.stage = .terminated

/-- A thread in `handleAccept` of a running server calls `buildConnection`. -/
theorem threatened_accepting {s : ThreadedServer} {k : Nat} (hk : s.inside k = some .accepting)
    (hrunning : s.base.running = true) : Threatened configuration env cors transport s := by
  have hcalls : s.callsBuildConnection (.proceed k) = true := by
    simp only [ThreadedServer.callsBuildConnection, hk, hrunning]
  refine ⟨[.proceed k], { s.destroy with stage := .terminated }, ?_, rfl⟩
  refine Run.cons_iff.mpr ⟨_, ?_, Run.nil_iff.mpr rfl⟩
  show s.destroy.moveThread configuration env cors transport (.proceed k) = _
  unfold Destruction.moveThread
  exact if_pos hcalls

/-- A step of a thread that keeps the process alive. -/
theorem Threatened.of_step {s s' : ThreadedServer} {e : ThreadedEvent} (e' : DestructionEvent)
    (he : e'.ofThread = some e) (hcalls : s.callsBuildConnection e = false)
    (hstep : s.step configuration env cors transport e = some s')
    (h : s'.base.crashed = false → Threatened configuration env cors transport s') :
    Threatened configuration env cors transport s := by
  have hmove : s.destroy.step configuration env cors transport e' =
      some ⟨s', if s'.base.crashed then .terminated else .derived⟩ := by
    have hmoved : s.destroy.moveThread configuration env cors transport e =
        some ⟨s', if s'.base.crashed then .terminated else .derived⟩ := by
      unfold Destruction.moveThread
      rw [show s.destroy.server = s from rfl, hcalls, hstep]
      rfl
    cases e' with
    | stop => cases he
    | join => cases he
    | accept k index failed =>
      cases he
      exact hmoved
    | complete k index completion =>
      cases he
      exact hmoved
    | proceed k =>
      cases he
      exact hmoved
  cases hcrashed : s'.base.crashed with
  | true =>
    rw [hcrashed] at hmove
    exact ⟨[e'], _, Run.cons_iff.mpr ⟨_, hmove, Run.nil_iff.mpr rfl⟩, rfl⟩
  | false =>
    obtain ⟨es, d, hrun, hd⟩ := h hcrashed
    rw [hcrashed] at hmove
    exact ⟨e' :: es, d, Run.cons_iff.mpr ⟨_, hmove, hrun⟩, hd⟩

/-- The first thread is idle: the accept under way comes to it, and then `buildConnection`. -/
theorem threatened_idle {s : ThreadedServer} (hs : ServingSound s)
    (hcrashed : s.base.crashed = false) (hio : s.base.ioStopped = false)
    (hthreads : s.base.threads ≠ []) (hk : s.inside 0 = none) :
    Threatened configuration env cors transport s := by
  obtain ⟨hrunning, haccepts⟩ := hs.accepts hio (Or.inl hthreads)
  rcases haccepts with hpending | ⟨k, hk'⟩
  · obtain ⟨i, is, hi⟩ := List.exists_cons_of_ne_nil hpending
    have hidle := hs.idle hio (List.length_pos_iff.mpr hthreads) hk
    have hmem : i ∈ s.base.pendingAccepts := by
      rw [hi]
      exact List.mem_cons_self
    have hstep : s.step configuration env cors transport (.accept 0 i true) =
        some (s.beginAccept transport 0 i true) := by
      unfold ThreadedServer.step
      simp only [hcrashed, hidle, hmem, and_self, if_true]
    refine Threatened.of_step (.accept 0 i true) rfl rfl hstep fun _ => ?_
    exact threatened_accepting (k := 0) (Function.update_self 0 _ s.inside) hrunning
  · exact threatened_accepting hk' hrunning

/-- **A serving server can end the process**: the first thread comes back from its handler, and the
    accept under way to it. The induction is on the accesses it still makes. -/
theorem threatened_serving (n : Nat) {es : List ThreadedEvent} {s : ThreadedServer}
    (ht : Threaded env cors transport es s) (hs : ServingSound s)
    (hcrashed : s.base.crashed = false) (hio : s.base.ioStopped = false)
    (hthreads : s.base.threads ≠ []) (hn : Job.left (s.inside 0) ≤ n) :
    Threatened configuration env cors transport s := by
  induction n generalizing es s with
  | zero =>
    cases hjob : s.inside 0 with
    | none => exact threatened_idle hs hcrashed hio hthreads hjob
    | some job =>
      rw [hjob] at hn
      cases job with
      | accepting => exact absurd hn (by decide)
      | processing i loop => exact absurd hn (Nat.not_succ_le_zero _)
  | succ n ih =>
    cases hjob : s.inside 0 with
    | none => exact threatened_idle hs hcrashed hio hthreads hjob
    | some job =>
      cases job with
      | accepting =>
        exact threatened_accepting hjob (hs.accepts hio (Or.inl hthreads)).1
      | processing i loop =>
        have henabled : (s.step configuration env cors transport (.proceed 0)).isSome = true :=
          proceed_enabled ht hcrashed (by rw [hjob]; exact fun e => by cases e)
        obtain ⟨s', hstep⟩ := Option.isSome_iff_exists.mp henabled
        have hcalls : s.callsBuildConnection (.proceed 0) = false := by
          simp only [ThreadedServer.callsBuildConnection, hjob]
        refine Threatened.of_step (.proceed 0) rfl hcalls hstep fun hcrashed' => ?_
        have hmoved : s'.base.ioStopped = s.base.ioStopped ∧ s'.base.threads = s.base.threads ∧
            Job.left (s'.inside 0) < Job.left (s.inside 0) := by
          cases (threadedStep_cases hstep).2 with
          | proceedAccept _ hk =>
            rw [hjob] at hk
            cases hk
          | proceedRead _ i' loop' c _ hk _ hproceed =>
            have hframe := handlerFrame_proceed hproceed
            obtain ⟨job, hinside, hless⟩ := ht.left_proceedRead hk hproceed
            refine ⟨hframe.ioStopped, hframe.threads, ?_⟩
            rw [hinside, Function.update_self]
            exact hless
        obtain ⟨hio', hthreads', hless⟩ := hmoved
        exact ih (threaded_step ht hstep) (servingSound_step ht hs hstep) hcrashed'
          (hio'.trans hio) (by rw [hthreads']; exact hthreads) (by omega)

/-! ## 4. The theorem -/

variable (configuration env cors transport) in
/-- **When a server can be destroyed**: from every reachable state outside `start` and `stop`, no
    interleaving of the destructors with the threads ends the process if and only if the server has
    never served. While it serves, a thread may call `buildConnection` behind the destructor of the
    derived class; behind an explicit `stop` the second `join` throws. -/
theorem destruction_safe_iff {es : List ThreadedEvent} {s : ThreadedServer}
    (hrun : Run (ThreadedServer.step configuration env cors transport) .new es s)
    (hcall : s.call = .none) (hcrashed : s.base.crashed = false) :
    SafelyDestroyed configuration env cors transport s ↔ NeverServed s := by
  have ht := threaded_run hrun
  have hs := servingSound_run hrun
  have houtside (hio : s.base.ioStopped = true) : ∀ k, s.inside k = none :=
    (hs.halted hio).resolve_left fun e => by rw [hcall] at e; cases e
  refine ⟨fun hsafe => ?_, fun hnever es' d hd => ?_⟩
  · by_contra hserved
    have hthreads : s.base.threads ≠ [] := fun e => hserved (Or.inl e)
    have hthreat : Threatened configuration env cors transport s := by
      cases hio : s.base.ioStopped with
      | false => exact threatened_serving _ ht hs hcrashed hio hthreads le_rfl
      | true =>
        -- behind a `stop` that met a thread, the destructor's own `stop` throws
        have hjoined : ∃ t ∈ s.base.threads, t.joinable = false := by
          by_contra hnone
          push Not at hnone
          exact hserved (Or.inr ⟨hio, fun t ht => by simpa using hnone t ht⟩)
        have hall : s.allOutside = true := by
          refine List.all_eq_true.mpr fun k _ => ?_
          rw [houtside hio k]
          rfl
        have hthrew : ({ s.base with ioStopped := true } : BaseServer).stop.2 = .threw :=
          stop_threw hjoined
        refine ⟨[.stop, .join], ⟨{ s with base :=
          ({ s.base with ioStopped := true } : BaseServer).stop.1 }, .terminated⟩, ?_, rfl⟩
        refine Run.cons_iff.mpr ⟨⟨{ s with base := { s.base with ioStopped := true } }, .joining⟩,
          rfl, Run.cons_iff.mpr ⟨_, ?_, Run.nil_iff.mpr rfl⟩⟩
        rcases hstop : ({ s.base with ioStopped := true } : BaseServer).stop with ⟨base, outcome⟩
        rw [hstop] at hthrew
        obtain rfl : outcome = .threw := hthrew
        have hall' : ({ s with base := { s.base with ioStopped := true } } :
          ThreadedServer).allOutside = true := hall
        unfold Destruction.step
        simp only [hall', and_self, if_true, hstop]
    obtain ⟨es', d, hd, hterminated⟩ := hthreat
    exact hsafe es' d hd hterminated
  · have hinside : ∀ k, s.inside k = none := by
      rcases hnever with hnone | ⟨hio, -⟩
      · intro k
        by_contra hk
        have hlt := ht.known k hk
        rw [hnone] at hlt
        exact Nat.not_lt_zero k hlt
      · exact houtside hio
    have hend : Unthreatened d := Run.invariant (I := Unthreatened)
      (fun _ _ _ h hstep => unthreatened_step h hstep)
      (Or.inr ⟨fun e => (by cases e), hinside, hnever⟩) hd
    rcases hend with hfinished | ⟨hstage, -⟩
    · rw [hfinished]
      exact fun e => by cases e
    · exact hstage

end Lifecycle

/-! ## 5. Three servers -/

/-- A new server can be destroyed, one that serves cannot, and neither can one that was stopped. -/
theorem destruction_safe_three :
    SafelyDestroyed .oneThread .reference .off .plain .new ∧
    (∃ s, Run (ThreadedServer.step .oneThread .reference .off .plain) .new
      [.start .good, .createThread, .createThread] s ∧
      ¬ SafelyDestroyed .oneThread .reference .off .plain s) ∧
    ∃ s, Run (ThreadedServer.step .oneThread .reference .off .plain) .new
      [.start .good, .createThread, .createThread, .stop, .join] s ∧
      ¬ SafelyDestroyed .oneThread .reference .off .plain s := by
  have hnew : Run (ThreadedServer.step .oneThread .reference .off .plain) .new [] .new := rfl
  have hserving : Run (ThreadedServer.step .oneThread .reference .off .plain) .new
      [.start .good, .createThread, .createThread] _ := rfl
  have hstopped : Run (ThreadedServer.step .oneThread .reference .off .plain) .new
      [.start .good, .createThread, .createThread, .stop, .join] _ := rfl
  refine ⟨(destruction_safe_iff .oneThread .reference .off .plain hnew rfl rfl).mpr (Or.inl rfl),
    ⟨_, hserving, fun hsafe => ?_⟩, ⟨_, hstopped, fun hsafe => ?_⟩⟩
  · rcases (destruction_safe_iff .oneThread .reference .off .plain hserving rfl rfl).mp hsafe with
      h | ⟨h, -⟩
    · cases h
    · cases h
  · rcases (destruction_safe_iff .oneThread .reference .off .plain hstopped rfl rfl).mp hsafe with
      h | ⟨-, h⟩
    · cases h
    · cases h _ List.mem_cons_self

end BoostAsioWebServer
