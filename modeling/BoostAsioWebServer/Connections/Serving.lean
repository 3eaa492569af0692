/-
  File:      BoostAsioWebServer/Connections/Serving.lean
  Subject:   WHAT A CONNECTION DOES, as a function of the bytes it receives.

  `served` is the abstract connection: the answer to the request a byte stream starts with, none
  while the parser has no verdict. The connection of Connection.lean refines it, over every run and
  on either transport.

  * `Serving`: the invariant of a run. It relates the bytes received to the parser's state and to
    the log, and has two cases: no verdict yet, and answered;
  * `serving_complete`, `serving_run`: one completion keeps it, so it holds after every run;
  * `Serving.observed`: the calls made and the bytes written are those of `served`;
  * `Connection.deliver`: successful reads one after another, as long as one is under way;
  * `segmentation_invisible`: no cut of a stream into reads, and no transport, makes a difference,
    and after a verdict there is no further read, call or write.
-/
import BoostAsioWebServer.Connections.Connection
import BoostAsioWebServer.Lib.Runs

namespace BoostAsioWebServer

open ByteText Feed Runs

/-! ## 1. What is observed of a log -/

/-- The web service calls of a log. -/
def callsOf (log : List Action) : List ServiceCall :=
  log.filterMap fun
    | .process call => some call
    | _ => none

/-- The buffers a log writes. -/
def writesOf (log : List Action) : List Bytes :=
  log.filterMap fun
    | .asyncWrite buffer => some buffer
    | _ => none

@[simp] theorem callsOf_append (xs ys : List Action) :
    callsOf (xs ++ ys) = callsOf xs ++ callsOf ys :=
  List.filterMap_append

@[simp] theorem writesOf_append (xs ys : List Action) :
    writesOf (xs ++ ys) = writesOf xs ++ writesOf ys :=
  List.filterMap_append

/-- A log without a verdict: nothing is called, replied or written. -/
def Silent (log : List Action) : Prop :=
  ∀ a ∈ log, a = .started ∨ a = .asyncHandshake ∨ a = .asyncRead ∨ a = .parsed none

/-- A log that only shuts down. -/
def OnlyShutdown (log : List Action) : Prop := ∀ a ∈ log, ∃ transport, a = .shutdown transport

/-- What `handleWrite` adds to a log is at most the shutdown. -/
theorem onlyShutdown_handleWrite (transport : Transport) (failed : Bool) :
    OnlyShutdown (if failed then [] else [.shutdown transport]) := by
  cases failed with
  | true => exact fun a ha => absurd ha List.not_mem_nil
  | false => exact fun a ha => ⟨transport, List.mem_singleton.mp ha⟩

theorem silent_nil : Silent [] := fun _ ha => absurd ha List.not_mem_nil

@[simp] theorem silent_cons {a : Action} {log : List Action} :
    Silent (a :: log) ↔
      (a = .started ∨ a = .asyncHandshake ∨ a = .asyncRead ∨ a = .parsed none) ∧ Silent log :=
  List.forall_mem_cons

theorem Silent.append {xs ys : List Action} (hx : Silent xs) (hy : Silent ys) :
    Silent (xs ++ ys) :=
  fun a ha => (List.mem_append.mp ha).elim (hx a) (hy a)

theorem Silent.calls {log : List Action} (h : Silent log) : callsOf log = [] := by
  refine List.filterMap_eq_nil_iff.mpr fun a ha => ?_
  rcases h a ha with rfl | rfl | rfl | rfl
  all_goals rfl

theorem Silent.writes {log : List Action} (h : Silent log) : writesOf log = [] := by
  refine List.filterMap_eq_nil_iff.mpr fun a ha => ?_
  rcases h a ha with rfl | rfl | rfl | rfl
  all_goals rfl

theorem OnlyShutdown.calls {log : List Action} (h : OnlyShutdown log) :
    callsOf log = [] := by
  refine List.filterMap_eq_nil_iff.mpr fun a ha => ?_
  obtain ⟨transport, rfl⟩ := h a ha
  rfl

theorem OnlyShutdown.writes {log : List Action} (h : OnlyShutdown log) :
    writesOf log = [] := by
  refine List.filterMap_eq_nil_iff.mpr fun a ha => ?_
  obtain ⟨transport, rfl⟩ := h a ha
  rfl

theorem Answer.calls_actions (a : Answer) : callsOf a.actions = a.calls := by
  have hcalls (cs : List ServiceCall) : callsOf (cs.map .process) = cs := by
    induction cs with
    | nil => rfl
    | cons c cs ih =>
      show c :: callsOf (cs.map .process) = c :: cs
      rw [ih]
  have htail : callsOf [.serialised a.reply, a.buffer.elim .threw .asyncWrite] = [] := by
    cases a.buffer with
    | none => rfl
    | some buffer => rfl
  show callsOf (a.calls.map .process ++ _) = a.calls
  rw [callsOf_append, hcalls, htail, List.append_nil]

/-- Calls of web services write nothing. -/
theorem writesOf_process (cs : List ServiceCall) : writesOf (cs.map .process) = [] := by
  refine List.filterMap_eq_nil_iff.mpr fun x hx => ?_
  obtain ⟨c, -, rfl⟩ := List.mem_map.mp hx
  rfl

theorem Answer.writes_actions (a : Answer) : writesOf a.actions = a.buffer.toList := by
  show writesOf (a.calls.map .process ++ _) = a.buffer.toList
  rw [writesOf_append, writesOf_process, List.nil_append]
  cases a.buffer with
  | none => rfl
  | some buffer => rfl

/-! ## 2. The invariant of a run -/

/-- The bytes a completion brings. -/
def Completion.received : Completion → Bytes
  | .handshake _ => []
  | .read data => data.bytes
  | .readFailed => []
  | .write _ => []

/-- The bytes received over some completions. -/
def received (es : List Completion) : Bytes := es.flatMap Completion.received

section Serving

variable (services : Services)

/-- The log of a connection that has answered a request. -/
def AnsweredLog (verdict : Bool) (request : Request) (log : List Action) : Prop :=
  ∃ before after,
    log = before ++ .parsed (some verdict) :: ((answer services request).actions ++ after) ∧
    Silent before ∧ OnlyShutdown after

/-- **The invariant**: a connection has no verdict on the bytes received, and its parser is where
    they lead; or it has one, and has answered the request the parser held. -/
inductive Serving (bytes : Bytes) (c : Connection) : Prop where
  | waiting (hpending : c.pending ≠ some .write)
      (hparse : feed (consume services.env.lexicalCast) .fresh bytes = (c.parse, none))
      (hlog : Silent c.log)
  | answered {p : Parse} {verdict : Bool}
      (hpending : c.pending = none ∨ c.pending = some .write)
      (hparse : feed (consume services.env.lexicalCast) .fresh bytes = (p, some verdict))
      (hlog : AnsweredLog services verdict p.request c.log)

/-- What has become of bytes that were all brought by successful reads: there is no verdict and the
    next read is under way, or they are answered. -/
inductive Delivered (bytes : Bytes) (c : Connection) : Prop where
  | waiting (hpending : c.pending = some .read)
      (hparse : feed (consume services.env.lexicalCast) .fresh bytes = (c.parse, none))
      (hlog : Silent c.log)
  | answered {p : Parse} {verdict : Bool} (hpending : c.pending = none ∨ c.pending = some .write)
      (hparse : feed (consume services.env.lexicalCast) .fresh bytes = (p, some verdict))
      (hlog : AnsweredLog services verdict p.request c.log)

/-- The connection behind a read: it reads on, or it answers. -/
def Connection.afterRead (c : Connection) (data : ReadData) : Connection :=
  let read := { c with pending := none, requestBuffer := c.requestBuffer.overwrite data }
  match feed (consume services.env.lexicalCast) c.parse data.bytes with
  | (p, none) =>
    { read with
      agent := p.agent
      request := p.request
      log := c.log ++ [Action.parsed none] }.asyncReadSome
  | (p, some verdict) =>
    { read with
      agent := p.agent
      request := p.request
      log := c.log ++ [Action.parsed (some verdict)] }.respond services (some verdict)

/-- **`handleRead` in terms of the bytes read**, on either transport. -/
theorem handle_read (transport : Transport) (c : Connection) (data : ReadData) :
    c.handle services transport (.read data) = c.afterRead services data := by
  have hread : c.handle services transport (.read data) = Connection.handleRead services
      { c with pending := none, requestBuffer := c.requestBuffer.overwrite data } false
      data.bytes.length := by
    cases transport with
    | plain => rfl
    | secured => rfl
  have hparse : ({ c with
      pending := none, requestBuffer := c.requestBuffer.overwrite data } : Connection).parse =
      c.parse := rfl
  rw [hread, Connection.handleRead, parseBuffer, ReadBuffer.first_overwrite, hparse,
    Connection.afterRead]
  rcases feed (consume services.env.lexicalCast) c.parse data.bytes with ⟨p, o⟩
  cases o with
  | none => rfl
  | some verdict => rfl

/-- **A read that brings the verdict leads to the answer.** -/
theorem afterRead_verdict {c : Connection} {data : ReadData} {p : Parse} {verdict : Bool}
    (h : feed (consume services.env.lexicalCast) c.parse data.bytes = (p, some verdict)) :
    c.afterRead services data =
      let a := answer services p.request
      { c with
        requestBuffer := c.requestBuffer.overwrite data
        agent := p.agent
        request := a.request
        reply := some a.reply
        replyBuffer := a.buffer.getD c.replyBuffer
        pending := a.buffer.map fun _ => .write
        log := c.log ++ .parsed (some verdict) :: a.actions } := by
  have hnone : ({ c with
    pending := none, requestBuffer := c.requestBuffer.overwrite data, agent := p.agent,
    request := p.request, log := c.log ++ [Action.parsed (some verdict)] } : Connection).pending =
    none := rfl
  rw [Connection.afterRead, h]
  simp only [Connection.respond_eq services _ hnone]
  simp

/-- What completes on a connection that is not reading and not in a handshake is a write. -/
theorem eq_write_of_not_reading {c : Connection} {e : Completion}
    (h : c.pending = none ∨ c.pending = some .write) (hop : c.pending = some e.operation) :
    ∃ failed, e = .write failed := by
  have hwrite : e.operation = .write := by
    rcases h with hnone | hwrite
    · rw [hnone] at hop
      cases hop
    · rw [hwrite] at hop
      exact (Option.some.inj hop).symm
  cases e with
  | handshake failed => cases hwrite
  | read data => cases hwrite
  | readFailed => cases hwrite
  | write failed => exact ⟨failed, rfl⟩

theorem Serving.empty {c : Connection} (hpending : c.pending ≠ some .write)
    (hparse : c.parse = .fresh) (hlog : Silent c.log) : Serving services [] c :=
  .waiting hpending (by rw [hparse]; rfl) hlog

/-- A started connection has received nothing. -/
theorem serving_start (transport : Transport) :
    Serving services [] (transport.start .built) := by
  cases transport with
  | plain =>
    have hlog : Silent [.started, .asyncRead] := by simp [silent_nil]
    exact .empty services (by decide) rfl hlog
  | secured =>
    have hlog : Silent [.started, .asyncHandshake] := by simp [silent_nil]
    exact .empty services (by decide) rfl hlog

variable {services}

theorem Delivered.serving {bytes : Bytes} {c : Connection} (h : Delivered services bytes c) :
    Serving services bytes c := by
  cases h with
  | waiting hpending hparse hlog =>
    refine .waiting (fun e => ?_) hparse hlog
    rw [hpending] at e
    cases e
  | answered hpending hparse hlog => exact .answered hpending hparse hlog

/-- Reading on is silent. -/
theorem delivered_asyncReadSome {bytes : Bytes} {c : Connection}
    (hparse : feed (consume services.env.lexicalCast) .fresh bytes = (c.parse, none))
    (hlog : Silent c.log) : Delivered services bytes c.asyncReadSome := by
  have hread : Silent [.asyncRead] := by simp [silent_nil]
  exact .waiting rfl hparse (hlog.append hread)

/-- A read keeps the invariant: the parser goes on where it stood. -/
theorem delivered_afterRead {bytes : Bytes} {c : Connection} (data : ReadData)
    (hparse : feed (consume services.env.lexicalCast) .fresh bytes = (c.parse, none))
    (hlog : Silent c.log) :
    Delivered services (bytes ++ data.bytes) (c.afterRead services data) := by
  have hfeed := feed_append_none hparse data.bytes
  rcases hp : feed (consume services.env.lexicalCast) c.parse data.bytes with ⟨p, o⟩
  rw [hp] at hfeed
  cases o with
  | none =>
    have hnone : Silent [.parsed none] := by simp [silent_nil]
    rw [Connection.afterRead, hp]
    exact delivered_asyncReadSome hfeed (hlog.append hnone)
  | some verdict =>
    rw [afterRead_verdict services hp]
    refine .answered ?_ hfeed ⟨c.log, [], ?_, hlog, fun a ha => absurd ha List.not_mem_nil⟩
    · show (answer services p.request).buffer.map (fun _ => Operation.write) = none ∨
        (answer services p.request).buffer.map (fun _ => Operation.write) = some .write
      cases (answer services p.request).buffer with
      | none => exact Or.inl rfl
      | some buffer => exact Or.inr rfl
    · rw [List.append_nil]

/-- **One completion keeps the invariant.** -/
theorem serving_complete (transport : Transport) {bytes : Bytes} {c c' : Connection}
    {e : Completion} (h : Serving services bytes c)
    (hstep : c.complete services transport e = some c') :
    Serving services (bytes ++ e.received) c' := by
  unfold Connection.complete at hstep
  split at hstep
  · rename_i hop
    rw [← Option.some.inj hstep]
    cases h with
    | waiting hpending hparse hlog =>
      cases e with
      | handshake failed =>
        rw [Completion.received, List.append_nil]
        cases failed with
        | false => exact (delivered_asyncReadSome hparse hlog).serving
        | true => exact .waiting (fun e => by cases e) hparse hlog
      | read data =>
        rw [handle_read]
        exact (delivered_afterRead data hparse hlog).serving
      | readFailed =>
        rw [Completion.received, List.append_nil]
        cases transport with
        | plain => exact .waiting (fun e => by cases e) hparse hlog
        | secured => exact .waiting (fun e => by cases e) hparse hlog
      | write failed => exact absurd hop hpending
    | answered hpending hparse hlog =>
      obtain ⟨failed, rfl⟩ := eq_write_of_not_reading hpending hop
      rw [Completion.received, List.append_nil, Connection.handle_write]
      obtain ⟨before, after, hlog, hbefore, hafter⟩ := hlog
      refine .answered (Or.inl rfl) hparse ⟨before,
        after ++ if failed then [] else [.shutdown transport], ?_, hbefore, ?_⟩
      · rw [hlog]
        simp only [List.append_assoc, List.cons_append]
      · intro a ha
        rcases List.mem_append.mp ha with ha | ha
        · exact hafter a ha
        · exact onlyShutdown_handleWrite transport failed a ha
  · cases hstep

/-- **The invariant holds after every run.** -/
theorem serving_run (transport : Transport) {es : List Completion} {c : Connection}
    (h : Run (Connection.complete services transport) (transport.start .built) es c) :
    Serving services (received es) c := by
  refine Run.history (I := fun es c => Serving services (received es) c) ?_
    (serving_start services transport) h
  intro es c e c' hc hstep
  have hc' := serving_complete transport hc hstep
  have hreceived : received (es ++ [e]) = received es ++ e.received := by simp [received]
  rwa [hreceived]

/-! ## 3. The abstract connection -/

variable (services) in
/-- **The abstract connection**: the answer to the request the bytes start with; none while the
    parser has no verdict. -/
def served (bytes : Bytes) : Option Answer :=
  match feed (consume services.env.lexicalCast) .fresh bytes with
  | (p, some _) => some (answer services p.request)
  | (_, none) => none

theorem served_none {bytes : Bytes} {p : Parse}
    (h : feed (consume services.env.lexicalCast) .fresh bytes = (p, none)) :
    served services bytes = none := by
  rw [served, h]

theorem served_some {bytes : Bytes} {p : Parse} {verdict : Bool}
    (h : feed (consume services.env.lexicalCast) .fresh bytes = (p, some verdict)) :
    served services bytes = some (answer services p.request) := by
  rw [served, h]

theorem AnsweredLog.calls {verdict : Bool} {request : Request} {log : List Action}
    (h : AnsweredLog services verdict request log) :
    callsOf log = (answer services request).calls := by
  obtain ⟨before, after, rfl, hbefore, hafter⟩ := h
  rw [callsOf_append, hbefore.calls, List.nil_append]
  show callsOf (_ ++ _) = _
  rw [callsOf_append, Answer.calls_actions, hafter.calls, List.append_nil]

theorem AnsweredLog.writes {verdict : Bool} {request : Request} {log : List Action}
    (h : AnsweredLog services verdict request log) :
    writesOf log = (answer services request).buffer.toList := by
  obtain ⟨before, after, rfl, hbefore, hafter⟩ := h
  rw [writesOf_append, hbefore.writes, List.nil_append]
  show writesOf (_ ++ _) = _
  rw [writesOf_append, Answer.writes_actions, hafter.writes, List.append_nil]

/-- **The connection refines the abstract one**: its calls and its writes are those of the bytes
    received. -/
theorem Serving.observed {bytes : Bytes} {c : Connection} (h : Serving services bytes c) :
    callsOf c.log = (served services bytes).elim [] Answer.calls ∧
      writesOf c.log = ((served services bytes).bind Answer.buffer).toList := by
  cases h with
  | waiting _ hparse hlog =>
    rw [served_none hparse]
    exact ⟨hlog.calls, hlog.writes⟩
  | answered _ hparse hlog =>
    rw [served_some hparse]
    exact ⟨hlog.calls, hlog.writes⟩

/-! ## 4. Behind the verdict -/

/-- A connection that is not reading and not in a handshake only shuts down. -/
theorem quiet_complete (transport : Transport) {c c' : Connection} {e : Completion}
    (h : c.pending = none ∨ c.pending = some .write)
    (hstep : c.complete services transport e = some c') :
    (c'.pending = none ∨ c'.pending = some .write) ∧
      ∃ tail, c'.log = c.log ++ tail ∧ OnlyShutdown tail := by
  unfold Connection.complete at hstep
  split at hstep
  · rename_i hop
    rw [← Option.some.inj hstep]
    obtain ⟨failed, rfl⟩ := eq_write_of_not_reading h hop
    rw [Connection.handle_write]
    exact ⟨Or.inl rfl, _, rfl, onlyShutdown_handleWrite transport failed⟩
  · cases hstep

/-- The same over a run. -/
theorem quiet_run (transport : Transport) {c c' : Connection} {es : List Completion}
    (h : c.pending = none ∨ c.pending = some .write)
    (hrun : Run (Connection.complete services transport) c es c') :
    ∃ tail, c'.log = c.log ++ tail ∧ OnlyShutdown tail := by
  have hinv := Run.invariant
    (I := fun s => (s.pending = none ∨ s.pending = some .write) ∧
      ∃ tail, s.log = c.log ++ tail ∧ OnlyShutdown tail)
    (fun s e s' hs hstep => by
      obtain ⟨hpending, tail, hlog, htail⟩ := hs
      obtain ⟨hpending', tail', hlog', htail'⟩ := quiet_complete transport hpending hstep
      refine ⟨hpending', tail ++ tail', by rw [hlog', hlog, List.append_assoc], fun a ha => ?_⟩
      exact (List.mem_append.mp ha).elim (htail a) (htail' a))
    ⟨h, [], (List.append_nil _).symm, fun a ha => absurd ha List.not_mem_nil⟩ hrun
  exact hinv.2

/-- The log holds a verdict of the parser. -/
def HasVerdict (log : List Action) : Prop := ∃ verdict, Action.parsed (some verdict) ∈ log

theorem Silent.not_hasVerdict {log : List Action} (h : Silent log) : ¬ HasVerdict log := by
  rintro ⟨verdict, hmem⟩
  rcases h _ hmem with e | e | e | e
  all_goals cases e

/-- Behind its verdict a connection neither reads nor is in a handshake. -/
theorem Serving.pending_of_hasVerdict {bytes : Bytes} {c : Connection}
    (h : Serving services bytes c) (hv : HasVerdict c.log) :
    c.pending = none ∨ c.pending = some .write := by
  cases h with
  | waiting _ _ hlog => exact absurd hv hlog.not_hasVerdict
  | answered hpending _ _ => exact hpending

/-- Nothing but the shutdown follows a write. -/
def WriteIsLast (log : List Action) : Prop :=
  ∀ before buffer after, log = before ++ .asyncWrite buffer :: after → OnlyShutdown after

theorem Silent.writeIsLast {log : List Action} (h : Silent log) : WriteIsLast log := by
  intro before buffer after hlog
  have hmem : Action.asyncWrite buffer ∈ log := by
    rw [hlog]
    exact List.mem_append_right _ List.mem_cons_self
  rcases h _ hmem with e | e | e | e
  all_goals cases e

/-- In what no write occurs, and one more action, and then shutdowns, the write is the last. -/
theorem writeIsLast_append {front tail : List Action} {a : Action}
    (hfront : writesOf front = []) (htail : OnlyShutdown tail) :
    WriteIsLast (front ++ a :: tail) := by
  intro before buffer after hlog
  rcases List.append_eq_append_iff.mp hlog with ⟨mid, hmid, hrest⟩ | ⟨mid, hmid, hrest⟩
  · -- the write stands at `a` or behind it
    cases mid with
    | nil =>
      rw [List.nil_append] at hrest
      rw [← (List.cons.inj hrest).2]
      exact htail
    | cons m mid =>
      have hmem : Action.asyncWrite buffer ∈ tail := by
        rw [(List.cons.inj hrest).2]
        exact List.mem_append_right _ List.mem_cons_self
      obtain ⟨transport, hshutdown⟩ := htail _ hmem
      cases hshutdown
  · cases mid with
    | nil =>
      rw [List.nil_append] at hrest
      rw [(List.cons.inj hrest).2]
      exact htail
    | cons m mid =>
      have hm : m = .asyncWrite buffer := (List.cons.inj hrest).1.symm
      have hmem : buffer ∈ writesOf front := by
        rw [hmid, hm]
        exact List.mem_filterMap.mpr ⟨_, List.mem_append_right _ List.mem_cons_self, rfl⟩
      rw [hfront] at hmem
      cases hmem

theorem AnsweredLog.writeIsLast {verdict : Bool} {request : Request} {log : List Action}
    (h : AnsweredLog services verdict request log) : WriteIsLast log := by
  obtain ⟨before, after, rfl, hbefore, hafter⟩ := h
  generalize answer services request = a
  have hlog : before ++ .parsed (some verdict) :: (a.actions ++ after) =
      (before ++ .parsed (some verdict) :: .uriParsed a.accepted :: a.calls.map .process ++
        [.serialised a.reply]) ++ a.buffer.elim .threw .asyncWrite :: after := by
    simp [Answer.actions]
  rw [hlog]
  refine writeIsLast_append ?_ hafter
  have hcalls : writesOf (.parsed (some verdict) :: .uriParsed a.accepted :: a.calls.map .process) =
      [] := writesOf_process a.calls
  rw [writesOf_append, writesOf_append, hbefore.writes, hcalls]
  rfl

/-- **A write is the last thing a connection does, but for the shutdown.** -/
theorem Serving.writeIsLast {bytes : Bytes} {c : Connection} (h : Serving services bytes c) :
    WriteIsLast c.log := by
  cases h with
  | waiting _ _ hlog => exact hlog.writeIsLast
  | answered _ _ hlog => exact hlog.writeIsLast

/-- At most one reply is written. -/
theorem Serving.writes_le_one {bytes : Bytes} {c : Connection} (h : Serving services bytes c) :
    (writesOf c.log).length ≤ 1 := by
  rw [h.observed.2]
  cases (served services bytes).bind Answer.buffer with
  | none => exact Nat.zero_le 1
  | some buffer => exact Nat.le_refl 1

/-! ## 5. Successful reads -/

variable (services) in
/-- The reads of a stream complete one after another, as long as one is under way. -/
def Connection.deliver (transport : Transport) (c : Connection) : List ReadData → Connection
  | [] => c
  | data :: rest =>
    match c.complete services transport (.read data) with
    | some c' => c'.deliver transport rest
    | none => c

/-- A connection that reads: started, and behind its handshake where there is one. -/
def Transport.ready : Transport → Connection
  | .plain => Connection.built.start
  | .secured => SecuredConnection.handleHandshake
      { SecuredConnection.start .built with pending := none } false

/-- The bytes of some reads. -/
def bytesOf (cut : List ReadData) : Bytes := cut.flatMap ReadData.bytes

theorem ready_waiting (transport : Transport) :
    transport.ready.pending = some .read ∧ transport.ready.parse = .fresh ∧
      Silent transport.ready.log := by
  cases transport with
  | plain =>
    have hlog : Silent [.started, .asyncRead] := by simp [silent_nil]
    exact ⟨rfl, rfl, hlog⟩
  | secured =>
    have hlog : Silent [.started, .asyncHandshake, .asyncRead] := by simp [silent_nil]
    exact ⟨rfl, rfl, hlog⟩

/-- Delivering to a connection that is not reading changes nothing. -/
theorem deliver_of_not_reading (transport : Transport) {c : Connection} (cut : List ReadData)
    (h : c.pending = none ∨ c.pending = some .write) : c.deliver services transport cut = c := by
  cases cut with
  | nil => rfl
  | cons data rest =>
    have hno : c.complete services transport (.read data) = none := by
      refine if_neg fun hread => ?_
      obtain ⟨failed, e⟩ := eq_write_of_not_reading h hread
      cases e
    rw [Connection.deliver, hno]

theorem delivered_of_reading (transport : Transport) (cut : List ReadData) {bytes : Bytes}
    {c : Connection} (hpending : c.pending = some .read)
    (hparse : feed (consume services.env.lexicalCast) .fresh bytes = (c.parse, none))
    (hlog : Silent c.log) :
    Delivered services (bytes ++ bytesOf cut) (c.deliver services transport cut) := by
  induction cut generalizing bytes c with
  | nil =>
    rw [bytesOf, List.flatMap_nil, List.append_nil]
    exact .waiting hpending hparse hlog
  | cons data rest ih =>
    have hstep : c.complete services transport (.read data) = some (c.afterRead services data) := by
      rw [← handle_read services transport]
      exact if_pos hpending
    have hread := delivered_afterRead data hparse hlog
    have hdeliver : c.deliver services transport (data :: rest) =
        (c.afterRead services data).deliver services transport rest := by
      rw [Connection.deliver, hstep]
    rw [hdeliver, bytesOf, List.flatMap_cons, ← List.append_assoc]
    cases hread with
    | waiting hpending' hparse' hlog' => exact ih hpending' hparse' hlog'
    | answered hpending' hparse' hlog' =>
      rw [deliver_of_not_reading transport rest hpending']
      exact .answered hpending' (feed_append_some hparse' _) hlog'

variable (services) in
/-- **Delivering a stream to a connection that reads.** -/
theorem delivered_ready (transport : Transport) (cut : List ReadData) :
    Delivered services (bytesOf cut) (transport.ready.deliver services transport cut) := by
  obtain ⟨hpending, hparse, hlog⟩ := ready_waiting transport
  have hfresh :
      feed (consume services.env.lexicalCast) .fresh [] = (transport.ready.parse, none) := by
    rw [hparse]
    rfl
  have h := delivered_of_reading transport cut hpending hfresh hlog
  rwa [List.nil_append] at h

/-- A connection still reads after a delivery exactly where the bytes have no answer yet. -/
theorem Delivered.reading_iff {bytes : Bytes} {c : Connection} (h : Delivered services bytes c) :
    c.pending = some .read ↔ served services bytes = none := by
  cases h with
  | waiting hpending hparse _ =>
    rw [served_none hparse, hpending]
    exact ⟨fun _ => rfl, fun _ => rfl⟩
  | answered hpending hparse _ =>
    rw [served_some hparse]
    constructor
    · intro e
      rcases hpending with hnone | hwrite
      · rw [hnone] at e
        cases e
      · rw [hwrite] at e
        cases e
    · intro e
      cases e

/-! ## 6. The theorem -/

variable (services) in
/-- **Neither the cut into reads nor the transport matters**: two cuts of one stream, each on either
    transport, give the same calls with the same requests and the same bytes, or both connections
    still wait. And over every run, at most one reply is written, nothing but the shutdown follows
    the write, and behind the verdict there is no read, no call and no write. -/
theorem segmentation_invisible :
    (∀ cut₁ cut₂ : List ReadData, bytesOf cut₁ = bytesOf cut₂ → ∀ transport₁ transport₂ : Transport,
      let c₁ := transport₁.ready.deliver services transport₁ cut₁
      let c₂ := transport₂.ready.deliver services transport₂ cut₂
      callsOf c₁.log = callsOf c₂.log ∧ writesOf c₁.log = writesOf c₂.log ∧
        (c₁.pending = some .read ↔ c₂.pending = some .read)) ∧
    ∀ (transport : Transport) (es : List Completion) (c : Connection),
      Run (Connection.complete services transport) (transport.start .built) es c →
      (writesOf c.log).length ≤ 1 ∧ WriteIsLast c.log ∧
        ∀ es' c', HasVerdict c.log → Run (Connection.complete services transport) c es' c' →
          ∃ tail, c'.log = c.log ++ tail ∧ OnlyShutdown tail := by
  refine ⟨fun cut₁ cut₂ hcut transport₁ transport₂ => ?_, fun transport es c hrun => ?_⟩
  · have h₁ := delivered_ready services transport₁ cut₁
    have h₂ := delivered_ready services transport₂ cut₂
    rw [← hcut] at h₂
    obtain ⟨hcalls₁, hwrites₁⟩ := h₁.serving.observed
    obtain ⟨hcalls₂, hwrites₂⟩ := h₂.serving.observed
    exact ⟨hcalls₁.trans hcalls₂.symm, hwrites₁.trans hwrites₂.symm,
      h₁.reading_iff.trans h₂.reading_iff.symm⟩
  · have h := serving_run transport hrun
    refine ⟨h.writes_le_one, h.writeIsLast, fun es' c' hverdict hrun' => ?_⟩
    exact quiet_run transport (h.pending_of_hasVerdict hverdict) hrun'

end Serving

/-! ## 7. A request in one read and in two -/

/-- A request cut inside its first line end has the same reply as the whole. -/
theorem segmentation_invisible_split :
    let whole : ReadData := ⟨ascii "GET /a HTTP/1.0\r\n\r\n", by decide, by decide⟩
    let front : ReadData := ⟨ascii "GET /a HTTP/1.0\r", by decide, by decide⟩
    let back : ReadData := ⟨ascii "\n\r\n", by decide, by decide⟩
    writesOf (Transport.plain.ready.deliver .echo .plain [whole]).log =
        [ascii "HTTP/1.0 200 OK\r\n\r\n/a"] ∧
      writesOf (Transport.secured.ready.deliver .echo .secured [front, back]).log =
        [ascii "HTTP/1.0 200 OK\r\n\r\n/a"] := by
  intro whole front back
  have hwhole : writesOf (Transport.plain.ready.deliver .echo .plain [whole]).log =
      [ascii "HTTP/1.0 200 OK\r\n\r\n/a"] := by decide +kernel
  have hcut : bytesOf [whole] = bytesOf [front, back] := by decide +kernel
  have hsame := ((segmentation_invisible .echo).1 [whole] [front, back] hcut .plain .secured).2.1
  exact ⟨hwhole, hsame.symm.trans hwhole⟩

end BoostAsioWebServer
