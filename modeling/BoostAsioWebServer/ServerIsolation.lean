/-
  File:      BoostAsioWebServer/ServerIsolation.lean
  Subject:   THE CONNECTIONS OF A SERVER DO NOT INTERFERE, over every interleaving of accepts,
             completions and calls.

  The handler of an accept starts whatever connection the one slot `newConnection` holds, and then
  overwrites the slot. That this is the connection the accept was for, and that it is still as
  built, is an invariant of the whole server (`Isolated`).

  * `Alone`: what a connection is when only its own events reach it;
  * `isolated_step`, `isolated_run`: every event keeps the invariant, so in every reachable state
    each connection is what it would be alone;
  * `connections_independent`: one accept at a time, of a connection not yet started; each accepted
    connection is started once, as built; what it writes is `served` of the bytes it received.
-/
import BoostAsioWebServer.ServerLifecycle
import BoostAsioWebServer.Connections.Serving

namespace BoostAsioWebServer

open ByteText Feed Runs

/-! ## 1. What the events say of one connection -/

/-- The connection an event accepts. -/
def Event.accepted : Event → Option Nat
  | .accept index false => some index
  | _ => none

/-- The completion an event brings to the connection at `i`. -/
def Event.completionOf (i : Nat) : Event → Option Completion
  | .complete index completion => if index = i then some completion else none
  | _ => none

/-- The connections accepted over some events. -/
def accepted (es : List Event) : List Nat := es.filterMap Event.accepted

/-- The completions of the connection at `i` over some events. -/
def completionsOf (i : Nat) (es : List Event) : List Completion :=
  es.filterMap (Event.completionOf i)

@[simp] theorem accepted_snoc (es : List Event) (e : Event) :
    accepted (es ++ [e]) = accepted es ++ e.accepted.toList := by
  unfold accepted
  rw [List.filterMap_append]
  cases h : e.accepted with
  | none => simp [h]
  | some i => simp [h]

@[simp] theorem completionsOf_snoc (i : Nat) (es : List Event) (e : Event) :
    completionsOf i (es ++ [e]) = completionsOf i es ++ (e.completionOf i).toList := by
  unfold completionsOf
  rw [List.filterMap_append]
  cases h : e.completionOf i with
  | none => simp [h]
  | some completion => simp [h]

section Isolation

variable {configuration : Configuration} (services : Services) (transport : Transport)

/-- **A connection on its own**: as built until it is accepted, then started and moved by its own
    completions only. -/
inductive Alone (es : List Event) (i : Nat) (c : Connection) : Prop where
  | built (haccepted : i ∉ accepted es) (hown : completionsOf i es = []) (hbuilt : c = .built)
  | started (haccepted : i ∈ accepted es)
      (hrun : Run (Connection.complete services transport) (transport.start .built)
        (completionsOf i es) c)

/-- An accept is under way for the connection in the slot, which is as built. -/
structure Waiting (es : List Event) (s : BaseServer) (i : Nat) : Prop where
  pending : s.pendingAccepts = [i]
  slot : s.newConnection = some i
  built : s.connections[i]? = some .built
  fresh : i ∉ accepted es

/-- **The invariant**: at most one accept is under way, and none before the acceptor is open; each
    connection is what it is on its own; none is accepted twice; no event is about a connection that
    does not exist. -/
structure Isolated (es : List Event) (s : BaseServer) : Prop where
  pending : s.pendingAccepts = [] ∨ ∃ i, Waiting es s i
  closed : s.acceptor = .closed → s.pendingAccepts = []
  alone : ∀ i c, s.connections[i]? = some c → Alone services transport es i c
  once : (accepted es).Nodup
  absent : ∀ i, s.connections[i]? = none → i ∉ accepted es ∧ completionsOf i es = []

theorem isolated_new : Isolated services transport [] .new where
  pending := Or.inl rfl
  closed _ := rfl
  alone i c h := by cases h
  once := List.nodup_nil
  absent i _ := ⟨List.not_mem_nil, rfl⟩

variable {services transport}

/-! ## 2. The parts of a step -/

theorem Alone.congr {es es' : List Event} {i : Nat} {c : Connection}
    (h : Alone services transport es i c) (haccepted : i ∈ accepted es' ↔ i ∈ accepted es)
    (hown : completionsOf i es' = completionsOf i es) : Alone services transport es' i c := by
  cases h with
  | built hnot hnone hbuilt =>
    exact .built (fun hin => hnot (haccepted.mp hin)) (hown.trans hnone) hbuilt
  | started hin hrun => exact .started (haccepted.mpr hin) (hown ▸ hrun)

/-- An event that accepts nothing and completes nothing leaves the connections as they are, and
    does not close the acceptor. -/
theorem Isolated.frame {es : List Event} {e : Event} {s s' : BaseServer}
    (h : Isolated services transport es s) (haccepted : e.accepted = none)
    (hown : ∀ i, e.completionOf i = none) (hconnections : s'.connections = s.connections)
    (hpending : s'.pendingAccepts = s.pendingAccepts) (hslot : s'.newConnection = s.newConnection)
    (hacceptor : s'.acceptor = .closed → s.acceptor = .closed) :
    Isolated services transport (es ++ [e]) s' := by
  have hes : accepted (es ++ [e]) = accepted es := by simp [haccepted]
  have hcs (i : Nat) : completionsOf i (es ++ [e]) = completionsOf i es := by simp [hown i]
  refine ⟨?_, fun hclosed => ?_, fun i c hc => ?_, ?_, fun i hi => ?_⟩
  · rw [hpending]
    refine h.pending.imp_right fun ⟨i, hi⟩ => ⟨i, hpending ▸ hi.pending, hslot ▸ hi.slot, ?_, ?_⟩
    · rw [hconnections]
      exact hi.built
    · rw [hes]
      exact hi.fresh
  · rw [hpending]
    exact h.closed (hacceptor hclosed)
  · rw [hconnections] at hc
    exact (h.alone i c hc).congr (by rw [hes]) (hcs i)
  · rw [hes]
    exact h.once
  · rw [hconnections] at hi
    rw [hes, hcs i]
    exact h.absent i hi

/-- A new accept, with a new connection in the slot, where none is under way. -/
theorem Isolated.startAcceptor {es : List Event} {s : BaseServer}
    (h : Isolated services transport es s) (hpending : s.pendingAccepts = [])
    (hacceptor : s.acceptor ≠ .closed) : Isolated services transport es s.startAcceptor := by
  have hend : s.connections[s.connections.length]? = none := List.getElem?_eq_none le_rfl
  obtain ⟨hfresh, hnone⟩ := h.absent _ hend
  have hnew : s.startAcceptor.connections[s.connections.length]? = some .built :=
    List.getElem?_concat_length
  refine ⟨Or.inr ⟨s.connections.length, ?_, rfl, hnew, hfresh⟩, fun hclosed => ?_,
    fun i c hc => ?_, h.once, fun i hi => ?_⟩
  · show s.pendingAccepts ++ [s.connections.length] = _
    rw [hpending]
    rfl
  · exact absurd hclosed hacceptor
  · by_cases hi : i = s.connections.length
    · rw [hi, hnew] at hc
      rw [hi, ← Option.some.inj hc]
      exact .built hfresh hnone rfl
    · refine h.alone i c ?_
      have hlt : i < s.connections.length := by
        have hlen : i < (s.connections ++ [Connection.built]).length :=
          (List.getElem?_eq_some_iff.mp hc).1
        rw [List.length_append, List.length_singleton] at hlen
        omega
      rw [← hc]
      exact (List.getElem?_append_left hlt).symm
  · refine h.absent i (List.getElem?_eq_none ?_)
    have hlen : (s.connections ++ [Connection.built]).length ≤ i := List.getElem?_eq_none_iff.mp hi
    rw [List.length_append] at hlen
    omega

/-- One connection changes: it is what it is alone after the events `es'`, and these say nothing new
    of the others. -/
theorem Isolated.replace {es es' : List Event} {s : BaseServer} {i : Nat} {c' : Connection}
    {connections : List Connection} (h : Isolated services transport es s)
    (hself : connections[i]? = some c') (hothers : ∀ j, i ≠ j → connections[j]? = s.connections[j]?)
    (halone : Alone services transport es' i c')
    (haccepted : ∀ j, i ≠ j → (j ∈ accepted es' ↔ j ∈ accepted es))
    (hown : ∀ j, i ≠ j → completionsOf j es' = completionsOf j es) :
    (∀ j c, connections[j]? = some c → Alone services transport es' j c) ∧
      ∀ j, connections[j]? = none → j ∉ accepted es' ∧ completionsOf j es' = [] := by
  refine ⟨fun j c hc => ?_, fun j hj => ?_⟩
  · by_cases hij : i = j
    · subst hij
      rw [hself] at hc
      exact Option.some.inj hc ▸ halone
    · rw [hothers j hij] at hc
      exact (h.alone j c hc).congr (haccepted j hij) (hown j hij)
  · have hij : i ≠ j := by
      intro e
      subst e
      rw [hself] at hj
      cases hj
    rw [hothers j hij] at hj
    obtain ⟨hnot, hnone⟩ := h.absent j hj
    exact ⟨fun hin => hnot ((haccepted j hij).mp hin), (hown j hij).trans hnone⟩

/-- The connection in the slot is started: it is the one accepted, and it is as built. -/
theorem Isolated.startNewConnection {es : List Event} {s : BaseServer} {i : Nat}
    (h : Isolated services transport es s) (hwaiting : Waiting es s i) :
    Isolated services transport (es ++ [.accept i false])
      ({ s with pendingAccepts := [] }.startNewConnection transport) := by
  have hstate : { s with pendingAccepts := [] }.startNewConnection transport =
      { s with pendingAccepts := [], connections := s.connections.modify i transport.start } := by
    unfold BaseServer.startNewConnection
    simp only [hwaiting.slot]
  have hes : accepted (es ++ [.accept i false]) = accepted es ++ [i] := accepted_snoc es _
  have hcs (j : Nat) : completionsOf j (es ++ [.accept i false]) = completionsOf j es := by
    rw [completionsOf_snoc]
    exact List.append_nil _
  rw [hstate]
  have hself : (s.connections.modify i transport.start)[i]? = some (transport.start .built) := by
    rw [List.getElem?_modify_eq, hwaiting.built]
    rfl
  have halone : Alone services transport (es ++ [.accept i false]) i (transport.start .built) := by
    refine .started (by rw [hes]; exact List.mem_append_right _ (List.mem_singleton.mpr rfl)) ?_
    have hnone : completionsOf i es = [] := by
      cases h.alone i .built hwaiting.built with
      | built _ hown _ => exact hown
      | started hin _ => exact absurd hin hwaiting.fresh
    rw [hcs, hnone]
    exact Run.nil_iff.mpr rfl
  have haccepted (j : Nat) (hij : i ≠ j) :
      j ∈ accepted (es ++ [.accept i false]) ↔ j ∈ accepted es := by
    rw [hes, List.mem_append, List.mem_singleton]
    exact or_iff_left fun e => hij e.symm
  obtain ⟨hall, habsent⟩ := h.replace hself (fun j hij => List.getElem?_modify_ne _ _ hij) halone
    haccepted fun j _ => hcs j
  refine ⟨Or.inl rfl, fun _ => rfl, hall, ?_, habsent⟩
  rw [hes]
  refine List.nodup_append.mpr ⟨h.once, List.nodup_singleton i, fun a ha b hb e => ?_⟩
  rw [e, List.mem_singleton.mp hb] at ha
  exact hwaiting.fresh ha

/-- A completion moves the connection it belongs to, and no other. -/
theorem Isolated.complete {es : List Event} {s : BaseServer} {i : Nat} {completion : Completion}
    {c c' : Connection} (h : Isolated services transport es s) (hc : s.connections[i]? = some c)
    (hstep : c.complete services transport completion = some c') (crashed : Bool) :
    Isolated services transport (es ++ [.complete i completion])
      { s with connections := s.connections.set i c', crashed := crashed } := by
  have hes : accepted (es ++ [.complete i completion]) = accepted es :=
    (accepted_snoc es _).trans (List.append_nil _)
  have hother {j : Nat} (hij : i ≠ j) :
      completionsOf j (es ++ [.complete i completion]) = completionsOf j es := by
    simp [Event.completionOf, hij]
  -- a connection as built has nothing under way that could complete
  have hnot : c ≠ .built := by
    intro e
    subst e
    cases hstep
  have hlt : i < s.connections.length := (List.getElem?_eq_some_iff.mp hc).1
  have hpending : ∀ j, Waiting es s j → Waiting (es ++ [.complete i completion])
      { s with connections := s.connections.set i c', crashed := crashed } j := by
    intro j hj
    have hij : i ≠ j := by
      intro e
      subst e
      exact hnot (Option.some.inj (hc.symm.trans hj.built))
    refine ⟨hj.pending, hj.slot, (List.getElem?_set_ne hij).trans hj.built, ?_⟩
    rw [hes]
    exact hj.fresh
  have halone : Alone services transport (es ++ [.complete i completion]) i c' := by
    cases h.alone i c hc with
    | built _ _ hbuilt => exact absurd hbuilt hnot
    | started hin hrun =>
      refine .started (by rw [hes]; exact hin) ?_
      have hown : completionsOf i (es ++ [.complete i completion]) =
          completionsOf i es ++ [completion] := by
        simp [Event.completionOf]
      rw [hown]
      exact Run.snoc_iff.mpr ⟨c, hrun, hstep⟩
  obtain ⟨hall, habsent⟩ := h.replace (List.getElem?_set_self hlt)
    (fun j hij => List.getElem?_set_ne hij) halone (fun j _ => by rw [hes]) fun j hij => hother hij
  refine ⟨h.pending.imp_right fun ⟨j, hj⟩ => ⟨j, hpending j hj⟩, h.closed, hall, ?_, habsent⟩
  rw [hes]
  exact h.once

/-! ## 3. Every event keeps the invariant -/

/-- Where the handler of an accept runs, that accept is the only one, and its connection is in the
    slot. -/
theorem Isolated.waiting {es : List Event} {s : BaseServer} {i : Nat}
    (h : Isolated services transport es s) (hi : i ∈ s.pendingAccepts) : Waiting es s i := by
  rcases h.pending with hnone | ⟨j, hj⟩
  · rw [hnone] at hi
    cases hi
  · have hmem := hi
    rw [hj.pending, List.mem_singleton] at hmem
    exact hmem ▸ hj

theorem isolated_start {es : List Event} {s : BaseServer} (os : StartOutcomes)
    (h : Isolated services transport es s) :
    Isolated services transport (es ++ [.start os]) (s.start configuration os).1 := by
  rcases start_cases configuration os s with ⟨endpoint, added, hopens, heq, -⟩ |
    ⟨acceptor, hacceptor, heq⟩
  · have hopened : Isolated services transport (es ++ [.start os])
        { s with acceptor := .listening endpoint, running := true } :=
      h.frame rfl (fun _ => rfl) rfl rfl rfl fun hclosed => by cases hclosed
    have haccepting := hopened.startAcceptor (h.closed hopens.closed) (by simp)
    rw [heq]
    exact ⟨haccepting.pending.imp_right fun ⟨i, hi⟩ => ⟨i, hi.pending, hi.slot, hi.built, hi.fresh⟩,
      haccepting.closed, haccepting.alone, haccepting.once, haccepting.absent⟩
  · rw [heq]
    refine h.frame rfl (fun _ => rfl) rfl rfl rfl fun hclosed => ?_
    by_contra hne
    have hsame : acceptor = s.acceptor := hacceptor hne
    exact hne (hsame ▸ hclosed)

theorem isolated_stop {es : List Event} {s : BaseServer} (h : Isolated services transport es s) :
    Isolated services transport (es ++ [.stop]) s.stop.1 := by
  unfold BaseServer.stop
  simp only
  split
  · exact h.frame rfl (fun _ => rfl) rfl rfl rfl id
  · exact h.frame rfl (fun _ => rfl) rfl rfl rfl id

/-- **The handler of an accept**: a successful one starts the connection that was accepted; then the
    slot is overwritten, or no accept is under way any more. -/
theorem isolated_accept {es : List Event} {s : BaseServer} {i : Nat} (failed : Bool)
    (h : Isolated services transport es s) (hi : i ∈ s.pendingAccepts) :
    Isolated services transport (es ++ [.accept i failed])
      (BaseServer.handleAccept transport
        { s with pendingAccepts := s.pendingAccepts.erase i } failed) := by
  have hwaiting := h.waiting hi
  have hopen : s.acceptor ≠ .closed := by
    intro hclosed
    rw [h.closed hclosed] at hi
    cases hi
  have herase : s.pendingAccepts.erase i = [] := by
    rw [hwaiting.pending]
    exact List.erase_cons_head i []
  rw [herase]
  unfold BaseServer.handleAccept
  cases failed with
  | true =>
    have hnone : Isolated services transport (es ++ [.accept i true])
        { s with pendingAccepts := [] } := by
      have hsame : Isolated services transport (es ++ [.accept i true]) s :=
        h.frame rfl (fun _ => rfl) rfl rfl rfl id
      exact ⟨Or.inl rfl, fun _ => rfl, hsame.alone, hsame.once, hsame.absent⟩
    simp only [Bool.not_true, Bool.false_eq_true, if_false]
    split
    · exact hnone.startAcceptor rfl hopen
    · exact hnone
  | false =>
    have hstarted := h.startNewConnection hwaiting
    simp only [Bool.not_false, if_true]
    split
    · refine hstarted.startAcceptor ?_ ?_
      · unfold BaseServer.startNewConnection
        simp only [hwaiting.slot]
      · unfold BaseServer.startNewConnection
        simp only [hwaiting.slot]
        exact hopen
    · exact hstarted

/-- **Every event keeps the invariant.** -/
theorem isolated_step {es : List Event} {s s' : BaseServer} {e : Event}
    (h : Isolated services transport es s)
    (hstep : s.step configuration services transport e = some s') :
    Isolated services transport (es ++ [e]) s' := by
  rcases step_cases configuration services transport hstep with
    ⟨os, rfl, rfl⟩ | ⟨rfl, rfl⟩ | ⟨i, failed, rfl, hi, rfl⟩ |
    ⟨i, completion, c, c', rfl, hc, hc', rfl⟩
  · exact isolated_start os h
  · exact isolated_stop h
  · exact isolated_accept failed h hi
  · exact h.complete hc hc' _

/-- **The invariant holds after every run.** -/
theorem isolated_run {es : List Event} {s : BaseServer}
    (hrun : Run (BaseServer.step configuration services transport) .new es s) :
    Isolated services transport es s :=
  Run.history (fun _ _ _ _ h hstep => isolated_step h hstep) (isolated_new services transport) hrun

/-! ## 4. Started once -/

/-- A log that begins with the start of the connection and has no other. -/
def StartedOnce (log : List Action) : Prop := ∃ tail, log = .started :: tail ∧ .started ∉ tail

theorem startedOnce_start (transport : Transport) : StartedOnce (transport.start .built).log := by
  cases transport with
  | plain => exact ⟨[.asyncRead], rfl, by simp⟩
  | secured => exact ⟨[.asyncHandshake], rfl, by simp⟩

theorem StartedOnce.append {log more : List Action} (h : StartedOnce log)
    (hmore : .started ∉ more) : StartedOnce (log ++ more) := by
  obtain ⟨tail, rfl, htail⟩ := h
  refine ⟨tail ++ more, rfl, fun hmem => ?_⟩
  exact (List.mem_append.mp hmem).elim htail hmore

/-- An answer starts nothing. -/
theorem started_not_mem_actions (a : Answer) : .started ∉ a.actions := by
  cases hbuffer : a.buffer with
  | none => simp [Answer.actions, hbuffer]
  | some buffer => simp [Answer.actions, hbuffer]

/-- The handler of a read starts nothing. -/
theorem startedOnce_afterRead {c : Connection} (data : ReadData) (h : StartedOnce c.log) :
    StartedOnce (c.afterRead services data).log := by
  rcases hp : feed (consume services.env.lexicalCast) c.parse data.bytes with ⟨p, o⟩
  cases o with
  | none =>
    rw [Connection.afterRead, hp]
    exact StartedOnce.append (h.append (by simp)) (by simp)
  | some verdict =>
    rw [afterRead_verdict services hp]
    refine h.append fun hmem => ?_
    rcases List.mem_cons.mp hmem with e | hmem
    · cases e
    · exact started_not_mem_actions _ hmem

/-- No handler starts a connection. -/
theorem startedOnce_complete {c c' : Connection} {e : Completion} (h : StartedOnce c.log)
    (hstep : c.complete services transport e = some c') : StartedOnce c'.log := by
  unfold Connection.complete at hstep
  split at hstep
  · rw [← Option.some.inj hstep]
    cases e with
    | handshake failed =>
      cases failed with
      | false => exact h.append (by simp)
      | true => exact h
    | read data =>
      rw [handle_read]
      exact startedOnce_afterRead data h
    | readFailed =>
      cases transport with
      | plain => exact h
      | secured => exact h
    | write failed =>
      rw [Connection.handle_write]
      exact h.append (by cases failed <;> simp)
  · cases hstep

/-! ## 5. The theorem -/

variable (configuration services transport) in
/-- **The connections of a server do not interfere**, over every interleaving. At most one accept is
    under way, and its connection is as built. No connection is accepted twice; each accepted one
    exists, was started once, with a fresh parser and a fresh request, and is where its own
    completions alone lead from there, so that what it writes is `served` of the bytes received on
    it. Every other connection is as built. -/
theorem connections_independent {es : List Event} {s : BaseServer}
    (hrun : Run (BaseServer.step configuration services transport) .new es s) :
    s.pendingAccepts.length ≤ 1 ∧ (∀ i ∈ s.pendingAccepts, s.connections[i]? = some .built) ∧
    (accepted es).Nodup ∧ (transport.start .built).parse = .fresh ∧
    (∀ i ∈ accepted es, ∃ c, s.connections[i]? = some c ∧ StartedOnce c.log ∧
      Run (Connection.complete services transport) (transport.start .built) (completionsOf i es) c ∧
      writesOf c.log =
        ((served services (received (completionsOf i es))).bind Answer.buffer).toList) ∧
    ∀ i c, i ∉ accepted es → s.connections[i]? = some c → c = .built := by
  have h := isolated_run hrun
  refine ⟨?_, fun i hi => (h.waiting hi).built, h.once, ?_, fun i hi => ?_, fun i c hi hc => ?_⟩
  · rcases h.pending with hnone | ⟨i, hi⟩
    · rw [hnone]
      exact Nat.zero_le 1
    · rw [hi.pending]
      exact Nat.le_refl 1
  · cases transport with
    | plain => rfl
    | secured => rfl
  · cases hc : s.connections[i]? with
    | none => exact absurd hi (h.absent i hc).1
    | some c =>
      cases h.alone i c hc with
      | built hnot _ _ => exact absurd hi hnot
      | started _ hown =>
        have honce : StartedOnce c.log := Run.invariant
          (fun _ _ _ hs hstep => startedOnce_complete hs hstep) (startedOnce_start transport) hown
        exact ⟨c, rfl, honce, hown, (serving_run transport hown).observed.2⟩
  · cases h.alone i c hc with
    | built _ _ hbuilt => exact hbuilt
    | started hin _ => exact absurd hin hi

end Isolation

/-! ## 6. Two connections at once -/

/-- The second of two connections is answered while the first still waits. -/
theorem connections_independent_two :
    let data : ReadData := ⟨ascii "GET /a HTTP/1.0\r\n\r\n", by decide, by decide⟩
    let es : List Event :=
      [.start .good, .accept 0 false, .accept 1 false, .complete 1 (.read data)]
    ∃ s c c', Run (BaseServer.step .oneThread .echo .plain) .new es s ∧
      s.connections[0]? = some c ∧ writesOf c.log = [] ∧
      s.connections[1]? = some c' ∧ writesOf c'.log = [ascii "HTTP/1.0 200 OK\r\n\r\n/a"] := by
  intro data es
  have hrun : Run (BaseServer.step .oneThread .echo .plain) .new es _ := rfl
  obtain ⟨-, -, -, -, hall, -⟩ := connections_independent .oneThread .echo .plain hrun
  obtain ⟨c, hc, -, -, hwrites⟩ := hall 0 (by simp [es, accepted, Event.accepted])
  obtain ⟨c', hc', -, -, hwrites'⟩ := hall 1 (by simp [es, accepted, Event.accepted])
  refine ⟨_, c, c', hrun, hc, hwrites, hc', hwrites'.trans ?_⟩
  decide +kernel

end BoostAsioWebServer
