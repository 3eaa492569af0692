/-
  File:      BoostAsioWebServer/ServerProgress.lean
  Subject:   NO HANDLER WAITS FOR ANOTHER, and how many accesses are left.

  A thread inside a handler can make its next access in every reachable state, whatever the other
  threads are inside of (`proceed_enabled`), and inside `processRequest` it makes two for each
  service it counted at most (`handlers_goOn`). Once `stop` has stopped the `io_service` no handler
  begins, and `left`, the accesses the threads may still make, bounds how many there are
  (`stopping_step`). The one call inside a handler that waits, for a client and not for a handler,
  is `shutdown` of a TLS stream, behind the last access of its handler: ServerHeld.lean.
-/
import BoostAsioWebServer.ServerServing
import Mathlib.Algebra.Order.BigOperators.Group.Finset

namespace BoostAsioWebServer

open ByteText Feed Runs

section Progress

variable {configuration : Configuration} {env : External} {cors : CORSConfiguration}
  {transport : Transport}

/-! ## 1. One access -/

/-- The connection a thread is inside of exists, and the thread stands in it as the invariant
    says. -/
theorem Threaded.inLoop {es : List ThreadedEvent} {s : ThreadedServer} {k i : Nat}
    {loop : RequestLoop WebService} (h : Threaded env cors transport es s)
    (hk : s.inside k = some (.processing i loop)) :
    ∃ c before data after p verdict, s.base.connections[i]? = some c ∧
      VerdictAt env es i before k data after p verdict ∧
      InsideLoop before k after (RequestURIParserService.parse p.request).1 loop := by
  cases hc : s.base.connections[i]? with
  | none => exact absurd hk ((h.absent i hc).2.2 k loop)
  | some c =>
    cases h.alone i c hc with
    | built _ _ hfree => exact absurd hk (hfree k loop)
    | waiting _ hfree => exact absurd hk (hfree k loop)
    | answered _ hfree => exact absurd hk (hfree k loop)
    | @processing before k₀ data after p verdict c₀ loop₀ _ hverdict _ _ _ hinside hloop =>
      obtain ⟨rfl, rfl⟩ := (hinside k loop).mp hk
      exact ⟨c, before, data, after, p, verdict, rfl, hverdict, hloop⟩

/-- **A thread inside a handler can go on**, whatever the others are inside of. -/
theorem proceed_enabled {es : List ThreadedEvent} {s : ThreadedServer} {k : Nat}
    (h : Threaded env cors transport es s) (hcrashed : s.base.crashed = false)
    (hk : s.inside k ≠ none) :
    (s.step configuration env cors transport (.proceed k)).isSome = true := by
  unfold ThreadedServer.step
  simp only [hcrashed, Bool.false_eq_true, if_false]
  cases hjob : s.inside k with
  | none => exact absurd hjob hk
  | some job =>
    cases job with
    | accepting => rfl
    | processing i loop =>
      obtain ⟨c, before, data, after, p, verdict, hc, -, hloop⟩ := h.inLoop hjob
      simp only [hc]
      unfold ThreadedServer.proceedRead
      have hstage := hloop.stands.stage
      cases hphase : loop.phase with
      | asking index =>
        simp only [Option.isSome_map, RequestLoop.getWebService, hphase]
        cases s.mgr.getWebService index with
        | none => rfl
        | some webService => rfl
      | calling index webService =>
        simp only [Option.isSome_map, RequestLoop.process, hphase]
        cases webService loop.request with
        | none => rfl
        | some reply => rfl
      | returned reply =>
        rw [hphase] at hstage
        cases hstage with
        | returned _ hresult =>
          obtain ⟨reply, rfl⟩ := hresult.exists_reply
          rfl
      | undefined =>
        rw [hphase] at hstage
        cases hstage

variable (configuration env cors transport) in
/-- **No handler waits for another**: in every reachable state each thread inside a handler can make
    its next access. Inside `processRequest` it has made two for each service it counted at most,
    and what it has called is first match over these. -/
theorem handlers_goOn {es : List ThreadedEvent} {s : ThreadedServer}
    (hrun : Run (ThreadedServer.step configuration env cors transport) .new es s) {k : Nat}
    (hcrashed : s.base.crashed = false) (hk : s.inside k ≠ none) :
    (s.step configuration env cors transport (.proceed k)).isSome = true ∧
      ∀ i loop, s.inside k = some (.processing i loop) →
        ∃ before data after p verdict, VerdictAt env es i before k data after p verdict ∧
          proceeds k after ≤ 2 * (registered before).consulted.length ∧
          FirstMatch (registered before).consulted (RequestURIParserService.parse p.request).1
            loop := by
  have h := threaded_run hrun
  refine ⟨proceed_enabled h hcrashed hk, fun i loop hloop => ?_⟩
  obtain ⟨c, before, data, after, p, verdict, -, hverdict, hinside⟩ := h.inLoop hloop
  exact ⟨before, data, after, p, verdict, hverdict, Nat.le_of_add_right_le hinside.bounded,
    hinside.stands.firstMatch⟩

/-! ## 2. The accesses left -/

/-- The accesses a thread may still make before it is inside no handler. -/
def Job.left : Option Job → Nat
  | none => 0
  | some .accepting => 1
  | some (.processing _ loop) => loop.remaining + 1

/-- The accesses all threads may still make. -/
def ThreadedServer.left (s : ThreadedServer) : Nat :=
  ∑ k ∈ Finset.range s.base.threads.length, Job.left (s.inside k)

/-- An access of a thread leaves fewer to it, and the other threads where they are. -/
theorem left_update {s s' : ThreadedServer} {k : Nat} {job : Option Job}
    (hthreads : s'.base.threads = s.base.threads)
    (hinside : s'.inside = Function.update s.inside k job) (hk : k < s.base.threads.length)
    (hless : Job.left job < Job.left (s.inside k)) : s'.left < s.left := by
  unfold ThreadedServer.left
  rw [hthreads, hinside]
  refine Finset.sum_lt_sum (fun j _ => ?_) ⟨k, Finset.mem_range.mpr hk, ?_⟩
  · by_cases hj : j = k
    · rw [hj, Function.update_self]
      exact hless.le
    · rw [Function.update_of_ne hj]
  · rw [Function.update_self]
    exact hless

/-- An access inside `processRequest` leaves fewer of them, or none behind the reply. -/
theorem proceedRead_left {s s' : ThreadedServer} {k i : Nat} {c : Connection}
    {loop : RequestLoop WebService} {consulted : List WebService} {request : Request}
    (hstands : loop.Stands consulted request) (hgrown : consulted <+: s.mgr.webServices)
    (h : s.proceedRead env cors k i c loop = some s') :
    ∃ job, s'.inside = Function.update s.inside k job ∧ Job.left job < loop.remaining + 1 := by
  unfold ThreadedServer.proceedRead at h
  cases hphase : loop.phase with
  | asking index =>
    rw [hphase] at h
    obtain ⟨loop', hloop', rfl⟩ := Option.map_eq_some_iff.mp h
    exact ⟨_, rfl, Nat.succ_lt_succ (hstands.getWebService hgrown hloop').2⟩
  | calling index webService =>
    rw [hphase] at h
    obtain ⟨loop', hloop', rfl⟩ := Option.map_eq_some_iff.mp h
    exact ⟨_, rfl, Nat.succ_lt_succ (hstands.process hloop').2⟩
  | returned reply =>
    rw [hphase] at h
    cases reply with
    | none => cases h
    | some reply =>
      rw [← Option.some.inj h]
      exact ⟨_, rfl, Nat.succ_pos _⟩
  | undefined =>
    rw [hphase] at h
    cases h

/-- The same of a thread of a reachable server. -/
theorem Threaded.left_proceedRead {es : List ThreadedEvent} {s s' : ThreadedServer} {k i : Nat}
    {c : Connection} {loop : RequestLoop WebService} (h : Threaded env cors transport es s)
    (hk : s.inside k = some (.processing i loop))
    (hproceed : s.proceedRead env cors k i c loop = some s') :
    ∃ job, s'.inside = Function.update s.inside k job ∧ Job.left job < Job.left (s.inside k) := by
  obtain ⟨-, before, data, after, p, verdict, -, hverdict, hloop⟩ := h.inLoop hk
  have hgrown : (registered before).consulted <+: s.mgr.webServices := by
    rw [h.mgr, hverdict.split]
    exact (consulted_front _).trans (registered_front _ _)
  rw [hk]
  exact proceedRead_left hloop.stands hgrown hproceed

/-- **An access leaves fewer to make.** -/
theorem proceed_left {es : List ThreadedEvent} {s s' : ThreadedServer} {k : Nat}
    (h : Threaded env cors transport es s)
    (hstep : s.step configuration env cors transport (.proceed k) = some s') :
    s'.left < s.left ∧ s'.base.ioStopped = s.base.ioStopped ∧ s'.call = s.call := by
  cases (threadedStep_cases hstep).2 with
  | proceedAccept _ hk =>
    have hk' : k < s.base.threads.length := h.known k (by rw [hk]; exact fun e => by cases e)
    have hless : Job.left none < Job.left (s.inside k) := by
      rw [hk]
      exact Nat.zero_lt_one
    unfold ThreadedServer.proceedAccept
    split
    · exact ⟨left_update rfl rfl hk' hless, rfl, rfl⟩
    · exact ⟨left_update rfl rfl hk' hless, rfl, rfl⟩
  | proceedRead _ i loop c _ hk _ hproceed =>
    have hk' : k < s.base.threads.length := h.known k (by rw [hk]; exact fun e => by cases e)
    have hframe := handlerFrame_proceed hproceed
    obtain ⟨job, hinside, hless⟩ := h.left_proceedRead hk hproceed
    exact ⟨left_update hframe.threads hinside hk' hless, hframe.ioStopped, hframe.call⟩

/-! ## 3. `stop` -/

/-- `stop` is waiting for the threads of a reachable server. -/
structure Stopping (env : External) (cors : CORSConfiguration) (transport : Transport)
    (s : ThreadedServer) : Prop where
  reached : ∃ es, Threaded env cors transport es s
  call : s.call = .stopping
  ioStopped : s.base.ioStopped = true

/-- An access of a thread. -/
def ThreadedEvent.isProceed : ThreadedEvent → Bool
  | .proceed _ => true
  | _ => false

/-- While `stop` waits the `io_service` is stopped. -/
theorem stopping_ioStopped {es : List ThreadedEvent} {s : ThreadedServer}
    (hrun : Run (ThreadedServer.step configuration env cors transport) .new es s)
    (hcall : s.call = .stopping) : s.base.ioStopped = true := by
  revert hcall
  refine (Run.history (I := fun es s => Threaded env cors transport es s ∧
    (s.call = .stopping → s.base.ioStopped = true)) (fun es s e s' hs hstep => ?_)
    ⟨threaded_new env cors transport, fun h => by cases h⟩ hrun).2
  obtain ⟨h, hio⟩ := hs
  refine ⟨threaded_step h hstep, ?_⟩
  cases (threadedStep_cases hstep).2 with
  | registerWebService webService => exact hio
  | start os hcall =>
    unfold ThreadedServer.start
    split
    · intro e
      rw [show s.call = .stopping from e] at hcall
      cases hcall
    · exact fun e => by cases e
  | createThread os i =>
    unfold ThreadedServer.createThread
    split
    · split
      · exact fun e => by cases e
      · exact fun e => by cases e
    · exact fun e => by cases e
  | stop => exact fun _ => rfl
  | join => exact fun e => by cases e
  | accept k i failed =>
    intro e
    exact (beginAccept_frame transport s k i failed).1.ioStopped.trans (hio e)
  | complete k i completion c hidle =>
    have hframe : HandlerFrame s (s.beginHandler env cors transport k i c completion) k :=
      handlerFrame_begin (ThreadedServer.idle_iff hidle).1
    rw [hframe.call, hframe.ioStopped]
    exact hio
  | proceedAccept k hk =>
    obtain ⟨-, hio', hcall⟩ := proceed_left h hstep
    rw [hio', hcall]
    exact hio
  | proceedRead k i loop c _ hk =>
    obtain ⟨-, hio', hcall⟩ := proceed_left h hstep
    rw [hio', hcall]
    exact hio

/-- While `stop` waits no handler begins. -/
theorem Stopping.events {s s' : ThreadedServer} {e : ThreadedEvent}
    (h : Stopping env cors transport s)
    (hstep : s.step configuration env cors transport e = some s') :
    e = .join ∨ (∃ k, e = .proceed k) ∨
      ∃ webService, e = .registerWebService webService ∧
        s' = { s with mgr := s.mgr.addWebService webService } := by
  have hidle (k : Nat) : s.idle k = false := by
    unfold ThreadedServer.idle
    rw [h.ioStopped]
    rfl
  have hcall := h.call
  cases (threadedStep_cases hstep).2 with
  | join => exact Or.inl rfl
  | proceedAccept k => exact Or.inr (Or.inl ⟨k, rfl⟩)
  | proceedRead k => exact Or.inr (Or.inl ⟨k, rfl⟩)
  | registerWebService webService => exact Or.inr (Or.inr ⟨webService, rfl, rfl⟩)
  | start os hnone =>
    rw [hcall] at hnone
    cases hnone
  | createThread os i hstarting =>
    rw [hcall] at hstarting
    cases hstarting
  | stop hnone =>
    rw [hcall] at hnone
    cases hnone
  | accept k i failed hk =>
    rw [hidle k] at hk
    cases hk
  | complete k i completion c hk =>
    rw [hidle k] at hk
    cases hk

/-- **While `stop` waits every access leaves fewer to make.** -/
theorem stopping_step {s s' : ThreadedServer} {e : ThreadedEvent}
    (h : Stopping env cors transport s) (he : e ≠ .join)
    (hstep : s.step configuration env cors transport e = some s') :
    Stopping env cors transport s' ∧
      s'.left + (if e.isProceed then 1 else 0) ≤ s.left := by
  obtain ⟨es, hes⟩ := h.reached
  have hes' := threaded_step hes hstep
  rcases h.events hstep with rfl | ⟨k, rfl⟩ | ⟨webService, rfl, rfl⟩
  · exact absurd rfl he
  · obtain ⟨hless, hio, hcall⟩ := proceed_left hes hstep
    exact ⟨⟨⟨_, hes'⟩, hcall.trans h.call, hio.trans h.ioStopped⟩, hless⟩
  · exact ⟨⟨⟨_, hes'⟩, h.call, h.ioStopped⟩, Nat.le_refl _⟩

/-- Until `stop` can join the threads, one of them has an access to make. -/
theorem stopping_goesOn {s : ThreadedServer} (h : Stopping env cors transport s)
    (hcrashed : s.base.crashed = false) :
    (s.step configuration env cors transport .join).isSome = true ∨
      ∃ k, (s.step configuration env cors transport (.proceed k)).isSome = true := by
  obtain ⟨es, hes⟩ := h.reached
  by_cases hall : s.allOutside = true
  · refine Or.inl ?_
    unfold ThreadedServer.step
    simp only [h.call, hcrashed, hall, and_self, if_true, Option.isSome_some]
  · unfold ThreadedServer.allOutside at hall
    rw [List.all_eq_true] at hall
    push Not at hall
    obtain ⟨k, -, hk⟩ := hall
    refine Or.inr ⟨k, proceed_enabled hes hcrashed fun hnone => hk ?_⟩
    rw [hnone]
    rfl

end Progress

/-! ## 4. A `stop` during an accept -/

/-- The thread in `handleAccept` can go on while `stop` waits for it. -/
theorem handlers_goOn_accept :
    ∃ s, Run (ThreadedServer.step .oneThread .reference .off .plain) .new
        [.start .good, .createThread, .createThread, .accept 0 0 false, .stop] s ∧
      (s.step .oneThread .reference .off .plain (.proceed 0)).isSome = true := by
  have hrun : Run (ThreadedServer.step .oneThread .reference .off .plain) .new
      [.start .good, .createThread, .createThread, .accept 0 0 false, .stop] _ := rfl
  have hinside := handlers_goOn .oneThread .reference .off .plain hrun (k := 0) rfl
    (Option.isSome_iff_ne_none.mp rfl)
  exact ⟨_, hrun, hinside.1⟩

end BoostAsioWebServer
