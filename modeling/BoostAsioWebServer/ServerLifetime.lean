/-
  File:      BoostAsioWebServer/ServerLifetime.lean
  Subject:   HOW LONG THINGS LAST: the connections of a server, its service, its process.

  A connection is owned by the slot `newConnection` and by the handler of its operation under way
  (`shared_from_this`); the handler of an accept owns none, and its socket is the connection's.

  * `connections_lifetime`: the connection of an accept under way is owned; one that nobody owns any
    more is never touched again;
  * `stop_final`: behind a `stop` nothing moves any more, whatever is called;
  * `crashed_run`: a process whose web services do not throw (those that do: ServerExceptions.lean)
    ends by a handler's exception exactly where a reply has no text.
-/
import BoostAsioWebServer.ServerIsolation

namespace BoostAsioWebServer

open ByteText Feed Runs

section Lifetime

variable {configuration : Configuration} {services : Services} {transport : Transport}

/-! ## 1. Connections -/

/-- Somebody owns the connection at `i`: the slot, or the handler of its operation under way. -/
def BaseServer.Owned (s : BaseServer) (i : Nat) : Prop :=
  s.newConnection = some i ∨ ∃ c, s.connections[i]? = some c ∧ c.pending ≠ none

/-- A connection that nobody owns. -/
structure Released (s : BaseServer) (i : Nat) (c : Connection) : Prop where
  exists_eq : s.connections[i]? = some c
  slot : s.newConnection ≠ some i
  pending : c.pending = none

theorem released_iff {s : BaseServer} {i : Nat} {c : Connection}
    (h : s.connections[i]? = some c) : Released s i c ↔ ¬ s.Owned i := by
  refine ⟨fun hr hown => ?_, fun hnot => ⟨h, fun e => hnot (Or.inl e), ?_⟩⟩
  · rcases hown with hslot | ⟨c', hc', hpending⟩
    · exact hr.slot hslot
    · rw [h] at hc'
      rw [← Option.some.inj hc'] at hpending
      exact hpending hr.pending
  · by_contra hpending
    exact hnot (Or.inr ⟨c, h, hpending⟩)

/-- A new accept takes a new connection into the slot. -/
theorem Released.startAcceptor {s : BaseServer} {i : Nat} {c : Connection} (h : Released s i c) :
    Released s.startAcceptor i c := by
  have hlt : i < s.connections.length := (List.getElem?_eq_some_iff.mp h.exists_eq).1
  refine ⟨(List.getElem?_append_left hlt).trans h.exists_eq, fun e => ?_, h.pending⟩
  exact absurd (Option.some.inj e) hlt.ne'

/-- The connection in the slot is another one. -/
theorem Released.startNewConnection {s : BaseServer} {i : Nat} {c : Connection}
    (h : Released s i c) : Released (s.startNewConnection transport) i c := by
  unfold BaseServer.startNewConnection
  split
  · rename_i j hslot
    have hji : j ≠ i := by
      intro e
      subst e
      exact h.slot hslot
    exact ⟨(List.getElem?_modify_ne _ _ hji).trans h.exists_eq, h.slot, h.pending⟩
  · exact h

theorem Released.handleAccept {s : BaseServer} {i : Nat} {c : Connection} (h : Released s i c)
    (failed : Bool) : Released (s.handleAccept transport failed) i c := by
  have hafter (s' : BaseServer) (h' : Released s' i c) :
      Released (if s'.running then s'.startAcceptor else s') i c := by
    split
    · exact h'.startAcceptor
    · exact h'
  cases failed with
  | false => exact hafter _ h.startNewConnection
  | true => exact hafter _ h

/-- The event is not about the connection at `i`. -/
def Event.Spares (i : Nat) (e : Event) : Prop := e.accepted ≠ some i ∧ e.completionOf i = none

/-- **No event touches a connection that nobody owns.** -/
theorem released_step {s s' : BaseServer} {e : Event} {i : Nat} {c : Connection}
    (h : Released s i c) (hslot : ∀ j ∈ s.pendingAccepts, s.newConnection = some j)
    (hstep : s.step configuration services transport e = some s') :
    Released s' i c ∧ e.Spares i := by
  rcases step_cases configuration services transport hstep with
    ⟨os, rfl, rfl⟩ | ⟨rfl, rfl⟩ | ⟨j, failed, rfl, hj, rfl⟩ | ⟨j, completion, d, d', rfl, hd, hd', rfl⟩
  · refine ⟨?_, ⟨fun e => (by cases e), rfl⟩⟩
    rcases start_cases configuration os s with ⟨endpoint, added, -, heq, -⟩ | ⟨acceptor, -, heq⟩
    · have hopened : Released { s with acceptor := .listening endpoint, running := true } i c :=
        ⟨h.exists_eq, h.slot, h.pending⟩
      have haccepting := hopened.startAcceptor
      rw [heq]
      exact ⟨haccepting.exists_eq, haccepting.slot, haccepting.pending⟩
    · rw [heq]
      exact ⟨h.exists_eq, h.slot, h.pending⟩
  · refine ⟨?_, ⟨fun e => (by cases e), rfl⟩⟩
    unfold BaseServer.stop
    simp only
    split
    · exact ⟨h.exists_eq, h.slot, h.pending⟩
    · exact ⟨h.exists_eq, h.slot, h.pending⟩
  · have herased : Released { s with pendingAccepts := s.pendingAccepts.erase j } i c :=
      ⟨h.exists_eq, h.slot, h.pending⟩
    refine ⟨herased.handleAccept failed, ⟨fun e => ?_, rfl⟩⟩
    have hji : j ≠ i := by
      intro e
      subst e
      exact h.slot (hslot j hj)
    cases failed with
    | false => exact hji (Option.some.inj e)
    | true => cases e
  · have hji : j ≠ i := by
      intro e
      subst e
      obtain rfl := Option.some.inj (hd.symm.trans h.exists_eq)
      unfold Connection.complete at hd'
      rw [h.pending, if_neg (fun e => by cases e)] at hd'
      cases hd'
    exact ⟨⟨(List.getElem?_set_ne hji).trans h.exists_eq, h.slot, h.pending⟩,
      ⟨fun e => (by cases e), if_neg hji⟩⟩

/-- The handler of an accept finds its connection in the slot. -/
theorem Isolated.slot {es : List Event} {s : BaseServer} (h : Isolated services transport es s) :
    ∀ j ∈ s.pendingAccepts, s.newConnection = some j := fun _ hj => (h.waiting hj).slot

/-- Over any continuation a connection that nobody owns stays as it is. -/
theorem released_run {es fs : List Event} {s s' : BaseServer} {i : Nat} {c : Connection}
    (hrun : Run (BaseServer.step configuration services transport) .new es s)
    (h : Released s i c) (hfs : Run (BaseServer.step configuration services transport) s fs s') :
    Released s' i c ∧ ∀ e ∈ fs, e.Spares i := by
  refine (Run.history (I := fun fs s' => Isolated services transport (es ++ fs) s' ∧
    Released s' i c ∧ ∀ e ∈ fs, e.Spares i) (fun fs t e t' ht hstep => ?_)
    ⟨by rw [List.append_nil]; exact isolated_run hrun, h, fun e he => absurd he List.not_mem_nil⟩
    hfs).2
  obtain ⟨hisolated, hreleased, hspares⟩ := ht
  obtain ⟨hreleased', he⟩ := released_step hreleased hisolated.slot hstep
  refine ⟨?_, hreleased', fun f hf => ?_⟩
  · rw [← List.append_assoc]
    exact isolated_step hisolated hstep
  · rcases List.mem_append.mp hf with hf | hf
    · exact hspares f hf
    · rw [List.mem_singleton.mp hf]
      exact he

variable (configuration services transport) in
/-- **The lifetime of a connection.** In every reachable state the connection whose socket an accept
    under way was given is owned, by the slot, though the accept's handler owns it not; and a
    connection that nobody owns is never touched again, over any continuation: no accept and no
    completion is about it, its state stays as it is, and nobody comes to own it. -/
theorem connections_lifetime {es : List Event} {s : BaseServer}
    (hrun : Run (BaseServer.step configuration services transport) .new es s) :
    (∀ i ∈ s.pendingAccepts, s.Owned i ∧ s.connections[i]? = some .built) ∧
    ∀ i c, s.connections[i]? = some c → ¬ s.Owned i →
      ∀ fs s', Run (BaseServer.step configuration services transport) s fs s' →
        s'.connections[i]? = some c ∧ ¬ s'.Owned i ∧ i ∉ accepted fs ∧ completionsOf i fs = [] := by
  refine ⟨fun i hi => ?_, fun i c hc hnot fs s' hfs => ?_⟩
  · have hwaiting := (isolated_run hrun).waiting hi
    exact ⟨Or.inl hwaiting.slot, hwaiting.built⟩
  · obtain ⟨hreleased, hspares⟩ := released_run hrun ((released_iff hc).mpr hnot) hfs
    refine ⟨hreleased.exists_eq, (released_iff hreleased.exists_eq).mp hreleased, fun hin => ?_, ?_⟩
    · obtain ⟨e, he, haccepted⟩ := List.mem_filterMap.mp hin
      exact (hspares e he).1 haccepted
    · exact List.filterMap_eq_nil_iff.mpr fun e he => (hspares e he).2

/-! ## 2. `stop` is final -/

/-- Behind `io_service::stop`, with the connections of `s` and others that are as built. -/
structure Frozen (s s' : BaseServer) : Prop where
  ioStopped : s'.ioStopped = true
  crashed : s'.crashed = s.crashed
  connections : ∃ added, s'.connections = s.connections ++ added ∧ ∀ c ∈ added, c = .built

theorem frozen_step {s t t' : BaseServer} {e : Event} (h : Frozen s t)
    (hstep : t.step configuration services transport e = some t') :
    Frozen s t' ∧ e.accepted = none ∧ ∀ i, e.completionOf i = none := by
  have hhandlers : t.handlersRun = false := by
    unfold BaseServer.handlersRun
    rw [h.ioStopped]
    rfl
  obtain ⟨added, hconnections, hbuilt⟩ := h.connections
  cases e with
  | start os =>
    rw [step_start configuration services transport hstep]
    refine ⟨?_, rfl, fun _ => rfl⟩
    rcases start_cases configuration os t with ⟨endpoint, threads, -, heq, -⟩ | ⟨acceptor, -, heq⟩
    · rw [heq]
      refine ⟨h.ioStopped, h.crashed, added ++ [.built], ?_, fun c hc => ?_⟩
      · show t.connections ++ [.built] = _
        rw [hconnections, List.append_assoc]
      · rcases List.mem_append.mp hc with hc | hc
        · exact hbuilt c hc
        · exact List.mem_singleton.mp hc
    · rw [heq]
      exact ⟨h.ioStopped, h.crashed, added, hconnections, hbuilt⟩
  | stop =>
    rw [step_stop configuration services transport hstep]
    refine ⟨?_, rfl, fun _ => rfl⟩
    unfold BaseServer.stop
    simp only
    split
    · exact ⟨rfl, h.crashed, added, hconnections, hbuilt⟩
    · exact ⟨rfl, h.crashed, added, hconnections, hbuilt⟩
  | accept index failed =>
    simp only [BaseServer.step, hhandlers, Bool.false_eq_true, false_and, and_false,
      if_false] at hstep
    cases hstep
  | complete index completion =>
    simp only [BaseServer.step, hhandlers, Bool.false_eq_true, and_false, if_false] at hstep
    cases hstep

variable (configuration services transport) in
/-- **`stop` is final**, from any state. Whatever is called behind it, no accept and no completion
    is handled any more, `start` included or not: every connection stays as it is, one that a later
    `start` builds stays as built, and no handler throws. -/
theorem stop_final {s s₀ s' : BaseServer} {fs : List Event}
    (hstop : s.step configuration services transport .stop = some s₀)
    (hfs : Run (BaseServer.step configuration services transport) s₀ fs s') :
    s'.ioStopped = true ∧ s'.crashed = s.crashed ∧ accepted fs = [] ∧
      (∀ i, completionsOf i fs = []) ∧
      ∃ added, s'.connections = s.connections ++ added ∧ ∀ c ∈ added, c = .built := by
  have hstopped : Frozen s s₀ := by
    rw [step_stop configuration services transport hstop]
    unfold BaseServer.stop
    simp only
    split
    · exact ⟨rfl, rfl, [], (List.append_nil _).symm, fun c hc => absurd hc List.not_mem_nil⟩
    · exact ⟨rfl, rfl, [], (List.append_nil _).symm, fun c hc => absurd hc List.not_mem_nil⟩
  obtain ⟨hfrozen, haccepted, hcompletions⟩ := Run.history
    (I := fun fs s' => Frozen s s' ∧ accepted fs = [] ∧ ∀ i, completionsOf i fs = [])
    (fun fs t e t' ht hstep => by
      obtain ⟨hfrozen, haccepted, hcompletions⟩ := ht
      obtain ⟨hfrozen', hnone, hnone'⟩ := frozen_step hfrozen hstep
      refine ⟨hfrozen', ?_, fun i => ?_⟩
      · rw [accepted_snoc, haccepted, hnone]
        rfl
      · rw [completionsOf_snoc, hcompletions i, hnone' i]
        rfl) ⟨hstopped, rfl, fun _ => rfl⟩ hfs
  exact ⟨hfrozen.ioStopped, hfrozen.crashed, haccepted, hcompletions, hfrozen.connections⟩

/-! ## 3. The process -/

theorem hasThrown_iff (log : List Action) : hasThrown log = true ↔ .threw ∈ log := by
  unfold hasThrown
  rw [List.any_eq_true]
  refine ⟨fun h => ?_, fun h => ⟨_, h, rfl⟩⟩
  obtain ⟨a, ha, hthrew⟩ := h
  cases a with
  | threw => exact ha
  | _ => cases hthrew

/-- An answer throws exactly where its reply has no text. -/
theorem threw_mem_actions (a : Answer) : .threw ∈ a.actions ↔ a.buffer = none := by
  unfold Answer.actions
  cases hbuffer : a.buffer with
  | none => simp
  | some buffer => simp

/-- **A connection has thrown exactly where the bytes it received are answered by a reply without a
    text.** -/
theorem Serving.threw_iff {bytes : Bytes} {c : Connection} (h : Serving services bytes c) :
    .threw ∈ c.log ↔ ∃ a, served services bytes = some a ∧ a.buffer = none := by
  cases h with
  | waiting _ hparse hlog =>
    rw [served_none hparse]
    refine ⟨fun hmem => ?_, fun h => ?_⟩
    · rcases hlog _ hmem with e | e | e | e
      all_goals cases e
    · obtain ⟨a, ha, -⟩ := h
      cases ha
  | @answered p verdict _ hparse hlog =>
    obtain ⟨before, after, hlog, hbefore, hafter⟩ := hlog
    have hmem : .threw ∈ c.log ↔ .threw ∈ (answer services p.request).actions := by
      rw [hlog, List.mem_append, List.mem_cons, List.mem_append]
      refine ⟨fun h => ?_, fun h => Or.inr (Or.inr (Or.inl h))⟩
      rcases h with h | h | h | h
      · rcases hbefore _ h with e | e | e | e
        all_goals cases e
      · cases h
      · exact h
      · obtain ⟨transport, hshutdown⟩ := hafter _ h
        cases hshutdown
    rw [hmem, threw_mem_actions, served_some hparse]
    refine ⟨fun h => ⟨_, rfl, h⟩, fun h => ?_⟩
    obtain ⟨a, ha, hbuffer⟩ := h
    rw [Option.some.inj ha]
    exact hbuffer

/-- The process has crashed exactly where some connection has thrown. -/
def CrashSeen (s : BaseServer) : Prop :=
  s.crashed = true ↔ ∃ c ∈ s.connections, .threw ∈ c.log

/-- A new connection has not thrown. -/
theorem CrashSeen.append_built {s s' : BaseServer} (h : CrashSeen s)
    (hcrashed : s'.crashed = s.crashed) (hconnections : s'.connections = s.connections ++ [.built]) :
    CrashSeen s' := by
  unfold CrashSeen at h ⊢
  rw [hcrashed, hconnections, h]
  refine ⟨fun ⟨c, hc, hthrew⟩ => ⟨c, List.mem_append_left _ hc, hthrew⟩, fun ⟨c, hc, hthrew⟩ => ?_⟩
  rcases List.mem_append.mp hc with hc | hc
  · exact ⟨c, hc, hthrew⟩
  · rw [List.mem_singleton.mp hc] at hthrew
    cases hthrew

theorem CrashSeen.startAcceptor {s : BaseServer} (h : CrashSeen s) : CrashSeen s.startAcceptor :=
  h.append_built rfl rfl

/-- The start of a connection throws nothing. -/
theorem CrashSeen.startNewConnection {s : BaseServer} (h : CrashSeen s) :
    CrashSeen (s.startNewConnection transport) := by
  have hlog (c : Connection) : .threw ∈ (transport.start c).log ↔ .threw ∈ c.log := by
    cases transport with
    | plain => simp [Transport.start, Connection.start, Connection.asyncReadSome]
    | secured => simp [Transport.start, SecuredConnection.start]
  unfold BaseServer.startNewConnection
  split
  · rename_i i hslot
    unfold CrashSeen at h ⊢
    rw [h]
    refine ⟨fun ⟨c, hc, hthrew⟩ => ?_, fun ⟨c, hc, hthrew⟩ => ?_⟩
    · obtain ⟨j, hj, rfl⟩ := List.getElem_of_mem hc
      by_cases hij : i = j
      · subst hij
        refine ⟨transport.start s.connections[i], List.mem_iff_getElem?.mpr ⟨i, ?_⟩,
          (hlog _).mpr hthrew⟩
        rw [List.getElem?_modify_eq, List.getElem?_eq_getElem hj]
        rfl
      · refine ⟨s.connections[j], List.mem_iff_getElem?.mpr ⟨j, ?_⟩, hthrew⟩
        exact (List.getElem?_modify_ne _ _ hij).trans (List.getElem?_eq_getElem hj)
    · obtain ⟨j, hj⟩ := List.mem_iff_getElem?.mp hc
      by_cases hij : i = j
      · subst hij
        rw [List.getElem?_modify_eq] at hj
        obtain ⟨d, hd, rfl⟩ := Option.map_eq_some_iff.mp hj
        exact ⟨d, List.mem_of_getElem? hd, (hlog d).mp hthrew⟩
      · rw [List.getElem?_modify_ne _ _ hij] at hj
        exact ⟨c, List.mem_of_getElem? hj, hthrew⟩
  · exact h

/-- One connection changes, and it alone is asked whether it has thrown. -/
theorem CrashSeen.replace {s : BaseServer} {i : Nat} (h : CrashSeen s) (hcrashed : s.crashed = false)
    (hi : i < s.connections.length) (c : Connection) :
    CrashSeen { s with connections := s.connections.set i c, crashed := hasThrown c.log } := by
  unfold CrashSeen
  rw [hasThrown_iff]
  refine ⟨fun hthrew => ⟨c, List.mem_set hi c, hthrew⟩, fun hthrown => ?_⟩
  obtain ⟨d, hd, hthrew⟩ := hthrown
  rcases List.mem_or_eq_of_mem_set hd with hd | rfl
  · have htrue := h.mpr ⟨d, hd, hthrew⟩
    rw [hcrashed] at htrue
    cases htrue
  · exact hthrew

theorem crashSeen_step {s s' : BaseServer} {e : Event} (h : CrashSeen s)
    (hstep : s.step configuration services transport e = some s') : CrashSeen s' := by
  cases e with
  | start os =>
    rw [step_start configuration services transport hstep]
    rcases start_cases configuration os s with ⟨endpoint, added, -, heq, -⟩ | ⟨acceptor, -, heq⟩
    · rw [heq]
      exact h.append_built rfl rfl
    · rw [heq]
      exact h
  | stop =>
    rw [step_stop configuration services transport hstep]
    unfold BaseServer.stop
    simp only
    split
    · exact h
    · exact h
  | accept index failed =>
    have hafter (s' : BaseServer) (h' : CrashSeen s') :
        CrashSeen (if s'.running then s'.startAcceptor else s') := by
      split
      · exact h'.startAcceptor
      · exact h'
    have hpending : CrashSeen { s with pendingAccepts := s.pendingAccepts.erase index } := h
    rcases step_cases configuration services transport hstep with
      ⟨os, e, -⟩ | ⟨e, -⟩ | ⟨j, failed', e, -, rfl⟩ | ⟨j, completion, c, c', e, -⟩
    · cases e
    · cases e
    · cases e
      cases failed with
      | false => exact hafter _ hpending.startNewConnection
      | true => exact hafter _ hpending
    · cases e
  | complete index completion =>
    have hcrashed : s.crashed = false := by
      by_contra hne
      simp only [BaseServer.step, hne, false_and, if_false] at hstep
      cases hstep
    rcases step_cases configuration services transport hstep with
      ⟨os, e, -⟩ | ⟨e, -⟩ | ⟨j, failed, e, -⟩ | ⟨i, completion', c, c', e, hc, -, rfl⟩
    · cases e
    · cases e
    · cases e
    · cases e
      exact h.replace hcrashed (List.getElem?_eq_some_iff.mp hc).1 c'

/-- A reply without a text is a web service's. -/
theorem answer_status {services : Services} {request : Request}
    (h : translateStatusToString (answer services request).reply.status = none) :
    ∃ webService ∈ services.webServices, ∃ reply,
      webService (answer services request).request = some reply ∧
        reply.status = (answer services request).reply.status := by
  have hstatus : (answer services request).reply.status =
      (processRequest services.webServices (answer services request).request).2.status :=
    addCORSHeaders_status _ _ _ _
  rcases processFrom_reply (answer services request).request 0 services.webServices with
    hfresh | ⟨webService, hmem, hreply⟩
  · rw [hstatus, processRequest, hfresh] at h
    cases h
  · exact ⟨webService, hmem, _, hreply, hstatus.symm⟩

theorem served_answer {services : Services} {bytes : Bytes} {a : Answer}
    (h : served services bytes = some a) : ∃ request, a = answer services request := by
  unfold served at h
  split at h
  · exact ⟨_, (Option.some.inj h).symm⟩
  · cases h

/-- Bytes that are answered without a text: the status has none, and it is a web service's. -/
theorem served_status {services : Services} {bytes : Bytes} {a : Answer}
    (h : served services bytes = some a) (hbuffer : a.buffer = none) :
    translateStatusToString a.reply.status = none ∧
      ∃ webService ∈ services.webServices, ∃ reply,
        webService a.request = some reply ∧ reply.status = a.reply.status := by
  obtain ⟨request, rfl⟩ := served_answer h
  have hstatus := Option.map_eq_none_iff.mp hbuffer
  exact ⟨hstatus, answer_status hstatus⟩

variable (services) in
/-- The bytes received on some accepted connection are answered by a reply without a text. -/
def Fatal (es : List Event) : Prop :=
  ∃ i ∈ accepted es, ∃ a, served services (received (completionsOf i es)) = some a ∧ a.buffer = none

/-- **The process has crashed exactly behind fatal events.** -/
theorem crashed_run {es : List Event} {s : BaseServer}
    (hrun : Run (BaseServer.step configuration services transport) .new es s) :
    s.crashed = true ↔ Fatal services es := by
  have hnew : CrashSeen .new :=
    ⟨fun h => (by cases h), fun ⟨_, hc, _⟩ => absurd hc List.not_mem_nil⟩
  have hseen : s.crashed = true ↔ ∃ c ∈ s.connections, .threw ∈ c.log :=
    Run.invariant (I := CrashSeen) (fun _ _ _ h hstep => crashSeen_step h hstep) hnew hrun
  have hisolated := isolated_run hrun
  rw [hseen]
  refine ⟨fun h => ?_, fun h => ?_⟩
  · obtain ⟨c, hc, hthrew⟩ := h
    obtain ⟨i, hc⟩ := List.mem_iff_getElem?.mp hc
    cases hisolated.alone i c hc with
    | built _ _ hbuilt =>
      rw [hbuilt] at hthrew
      cases hthrew
    | started hin hown =>
      exact ⟨i, hin, (serving_run transport hown).threw_iff.mp hthrew⟩
  · obtain ⟨i, hi, ha⟩ := h
    cases hc : s.connections[i]? with
    | none => exact absurd hi (hisolated.absent i hc).1
    | some c =>
      cases hisolated.alone i c hc with
      | built hnot => exact absurd hi hnot
      | started _ hown =>
        exact ⟨c, List.mem_of_getElem? hc, (serving_run transport hown).threw_iff.mpr ha⟩

end Lifetime

/-! ## 4. Two runs -/

/-- A request and its answer on one connection, and then nobody owns it. -/
theorem connections_lifetime_one :
    let data : ReadData := ⟨ascii "GET /a HTTP/1.0\r\n\r\n", by decide, by decide⟩
    let es : List Event :=
      [.start .good, .accept 0 false, .complete 0 (.read data), .complete 0 (.write false)]
    ∃ s c, Run (BaseServer.step .oneThread .echo .plain) .new es s ∧ s.connections[0]? = some c ∧
      ∀ fs s', Run (BaseServer.step .oneThread .echo .plain) s fs s' →
        s'.connections[0]? = some c := by
  intro data es
  have hend : (es.foldlM (BaseServer.step .oneThread .echo .plain) BaseServer.new).any (fun s =>
      decide (s.newConnection ≠ some 0) &&
        (s.connections[0]?).any fun c => decide (c.pending = none)) = true := by decide +kernel
  obtain ⟨s, hrun, hs⟩ := (Option.any_eq_true _ _).mp hend
  obtain ⟨hslot, hs⟩ := (Bool.and_eq_true _ _).mp hs
  obtain ⟨c, hc, hpending⟩ := (Option.any_eq_true _ _).mp hs
  have hreleased : Released s 0 c := ⟨hc, of_decide_eq_true hslot, of_decide_eq_true hpending⟩
  refine ⟨s, c, hrun, hc, fun fs s' hfs => ?_⟩
  exact ((connections_lifetime .oneThread .echo .plain hrun).2 0 c hc
    ((released_iff hc).mp hreleased) fs s' hfs).1

/-- Behind `stop` a `start` that gets through handles nothing. -/
theorem stop_final_start :
    ∃ s₀ s', BaseServer.new.step .oneThread .echo .plain .stop = some s₀ ∧
      Run (BaseServer.step .oneThread .echo .plain) s₀ [.start .good] s' ∧
      s'.isRunning = true ∧ s'.ioStopped = true := by
  have hstop : BaseServer.new.step .oneThread .echo .plain .stop = some BaseServer.new.stop.1 := rfl
  have hfs : Run (BaseServer.step .oneThread .echo .plain) BaseServer.new.stop.1 [.start .good]
      (BaseServer.new.stop.1.start .oneThread .good).1 := rfl
  exact ⟨_, _, hstop, hfs, rfl, (stop_final .oneThread .echo .plain hstop hfs).1⟩

end BoostAsioWebServer
