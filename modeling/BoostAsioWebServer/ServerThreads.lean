/-
  File:      BoostAsioWebServer/ServerThreads.lean
  Subject:   THE THREADS OF A SERVER (`BaseServer.cpp`, `Connections/Connection.cpp`,
             `Services/RequestHandlingService.cpp`): handlers interleaved access by access.

  The threads of the pool run handlers at the same time, and web services are registered while
  they do. `ThreadedServer.step` is one event of it. A handler begins with the completion it is
  given to a thread for, and goes on (`proceed`) from one access to what the threads share to the
  next: `handleAccept` has started its connection and comes to `m_running`; `handleRead` has a
  verdict and is inside `processRequest`, where the registry is asked for one service after the
  other. `start` and `stop` are cut in the same way: handlers run while `start` still creates
  threads, and while `stop` waits for the threads to come back.

  Assumed beyond BaseServer.lean: one access is not torn by another (the registry is a vector and
  `m_running` a `bool`, without a lock), the web services return, and `start` and `stop` are called
  by one thread. What `getWebService` makes of an index outside the registry is not defined, and
  nothing follows it. A thread that stays with a TLS peer behind its last access is in
  ServerHeld.lean.
-/
import BoostAsioWebServer.BaseServer
import BoostAsioWebServer.Connections.ReadParts
import BoostAsioWebServer.Services.RequestDispatch
import Mathlib.Logic.Function.Basic

namespace BoostAsioWebServer

open ByteText

/-! ## 1. The threads -/

/-- The handler a thread is inside of, between two accesses. -/
inductive Job where
  | accepting
  | processing (index : Nat) (loop : RequestLoop WebService)

/-- The call the lifecycle is in: `start` behind `openAcceptor`, at its thread `i`, or `stop` behind
    `io_service::stop`. -/
inductive LifecycleCall where
  | none
  | starting (os : StartOutcomes) (i : Nat)
  | stopping

/-- The server, its registry, the handler each thread of the pool is inside of, by the thread's
    position, and the call under way. -/
structure ThreadedServer where
  base : BaseServer
  mgr : WebServicesMgr WebService
  inside : Nat → Option Job
  call : LifecycleCall

/-- The constructor. -/
def ThreadedServer.new : ThreadedServer where
  base := .new
  mgr := ⟨[]⟩
  inside := fun _ => none
  call := .none

/-- An event: a call, a completion that is given to the thread at `k`, or the next access of the
    handler that thread is inside of. -/
inductive ThreadedEvent where
  | registerWebService (webService : WebService)
  | start (os : StartOutcomes)
  | createThread
  | stop
  | join
  | accept (k index : Nat) (failed : Bool)
  | complete (k index : Nat) (completion : Completion)
  | proceed (k : Nat)

/-- The thread is inside `io_service::run` and inside no handler, and `run` hands out handlers. -/
def ThreadedServer.idle (s : ThreadedServer) (k : Nat) : Bool :=
  !s.base.ioStopped && (s.base.threads[k]?.any (·.serving)) && (s.inside k).isNone

/-- No thread of the pool is inside a handler. -/
def ThreadedServer.allOutside (s : ThreadedServer) : Bool :=
  (List.range s.base.threads.length).all fun k => (s.inside k).isNone

/-- The thread at `k` is inside another handler, or inside none. -/
def ThreadedServer.setInside (s : ThreadedServer) (k : Nat) (job : Option Job) : ThreadedServer :=
  { s with inside := Function.update s.inside k job }

/-- The connection at `i` changes. -/
def ThreadedServer.setConnection (s : ThreadedServer) (i : Nat) (c : Connection) : ThreadedServer :=
  { s with base := { s.base with connections := s.base.connections.set i c } }

section Steps

variable (configuration : Configuration) (env : External) (cors : CORSConfiguration)
  (transport : Transport)

/-- `start`: `openAcceptor`, and the loop that creates threads is next. -/
def ThreadedServer.start (os : StartOutcomes) (s : ThreadedServer) : ThreadedServer :=
  match s.base.openAcceptor configuration os with
  | (base, .threw) => { s with base := base }
  | (base, .returned) => { s with base := base, call := .starting os 0 }

/-- One round of the loop in `start`, at `i`; behind its last round, or where a thread cannot be
    created, the call is over. -/
def ThreadedServer.createThread (os : StartOutcomes) (i : Nat) (s : ThreadedServer) :
    ThreadedServer :=
  if i < configuration.threadPoolSize then
    if os.createsThread i then
      { s with
        base := { s.base with
          threads := s.base.threads ++ [⟨true, 0, 0, !s.base.ioStopped⟩] }
        call := .starting os (i + 1) }
    else { s with call := .none }
  else { s with call := .none }

/-- `handleAccept` begins in the thread at `k`, and starts the connection in the slot. -/
def ThreadedServer.beginAccept (s : ThreadedServer) (k index : Nat) (failed : Bool) :
    ThreadedServer :=
  let base := { s.base with pendingAccepts := s.base.pendingAccepts.erase index }
  { s with base := if !failed then base.startNewConnection transport else base }.setInside k
    (some .accepting)

/-- The handler of a completion begins in the thread at `k`. That of a read with a verdict comes to
    `processRequest`, which reads the number of services; every other runs to its end. -/
def ThreadedServer.beginHandler (s : ThreadedServer) (k i : Nat) (c : Connection) :
    Completion → ThreadedServer
  | .read data =>
    let c := { c with pending := none, requestBuffer := c.requestBuffer.overwrite data }
    match c.beforeProcess env data.bytes.length with
    | (c, true) =>
      (s.setConnection i c).setInside k
        (some (.processing i (RequestLoop.start s.mgr c.request)))
    | (c, false) => s.setConnection i c
  | completion => s.setConnection i (c.handle ⟨env, s.mgr.webServices, cors⟩ transport completion)

/-- `handleAccept` behind the start of its connection. -/
def ThreadedServer.proceedAccept (s : ThreadedServer) (k : Nat) : ThreadedServer :=
  { s with base := if s.base.running then s.base.startAcceptor else s.base }.setInside k none

/-- `processRequest` at its next access, and the end of `handleRead` behind its reply. -/
def ThreadedServer.proceedRead (s : ThreadedServer) (k i : Nat) (c : Connection)
    (loop : RequestLoop WebService) : Option ThreadedServer :=
  match loop.phase with
  | .asking _ =>
    (loop.getWebService s.mgr).map fun loop => s.setInside k (some (.processing i loop))
  | .calling index webService =>
    (loop.process (webService loop.request)).map fun loop =>
      (s.setConnection i (c.process index)).setInside k (some (.processing i loop))
  | .returned (some reply) =>
    let c := c.afterProcess env cors reply
    let s := (s.setConnection i c).setInside k none
    some { s with base := { s.base with crashed := hasThrown c.log } }
  | _ => none

/-- **One event.** A process that has crashed has no more events; `start` and `stop` begin when no
    such call is under way; a handler begins in an idle thread; `stop` goes on when every thread has
    come back. -/
def ThreadedServer.step (s : ThreadedServer) : ThreadedEvent → Option ThreadedServer
  | .registerWebService webService =>
    if s.base.crashed then none else some { s with mgr := s.mgr.addWebService webService }
  | .start os =>
    match s.call with
    | .none => if s.base.crashed then none else some (s.start configuration os)
    | _ => none
  | .createThread =>
    match s.call with
    | .starting os i => if s.base.crashed then none else some (s.createThread configuration os i)
    | _ => none
  | .stop =>
    match s.call with
    | .none =>
      if s.base.crashed then none
      else some { s with base := { s.base with ioStopped := true }, call := .stopping }
    | _ => none
  | .join =>
    match s.call with
    | .stopping =>
      if s.base.crashed = false ∧ s.allOutside = true then
        some { s with base := s.base.stop.1, call := .none }
      else none
    | _ => none
  | .accept k index failed =>
    if s.base.crashed = false ∧ s.idle k = true ∧ index ∈ s.base.pendingAccepts then
      some (s.beginAccept transport k index failed)
    else none
  | .complete k index completion =>
    if s.base.crashed = false ∧ s.idle k = true then
      match s.base.connections[index]? with
      | some c =>
        if c.pending = some completion.operation then
          some (s.beginHandler env cors transport k index c completion)
        else none
      | none => none
    else none
  | .proceed k =>
    if s.base.crashed then none
    else
      match s.inside k with
      | some .accepting => some (s.proceedAccept k)
      | some (.processing index loop) =>
        match s.base.connections[index]? with
        | some c => s.proceedRead env cors k index c loop
        | none => none
      | none => none

/-! ## 2. What an event can do -/

/-- The cases of an event, each with what it needs and the state it leads to. -/
inductive ThreadedCase (configuration : Configuration) (env : External) (cors : CORSConfiguration)
    (transport : Transport) (s : ThreadedServer) : ThreadedEvent → ThreadedServer → Prop where
  | registerWebService (webService : WebService) :
      ThreadedCase configuration env cors transport s (.registerWebService webService)
        { s with mgr := s.mgr.addWebService webService }
  | start (os : StartOutcomes) (hcall : s.call = .none) :
      ThreadedCase configuration env cors transport s (.start os) (s.start configuration os)
  | createThread (os : StartOutcomes) (i : Nat) (hcall : s.call = .starting os i) :
      ThreadedCase configuration env cors transport s .createThread
        (s.createThread configuration os i)
  | stop (hcall : s.call = .none) :
      ThreadedCase configuration env cors transport s .stop
        { s with base := { s.base with ioStopped := true }, call := .stopping }
  | join (hcall : s.call = .stopping) (hall : s.allOutside = true) :
      ThreadedCase configuration env cors transport s .join
        { s with base := s.base.stop.1, call := .none }
  | accept (k index : Nat) (failed : Bool) (hidle : s.idle k = true)
      (hindex : index ∈ s.base.pendingAccepts) :
      ThreadedCase configuration env cors transport s (.accept k index failed)
        (s.beginAccept transport k index failed)
  | complete (k index : Nat) (completion : Completion) (c : Connection) (hidle : s.idle k = true)
      (hc : s.base.connections[index]? = some c) (hop : c.pending = some completion.operation) :
      ThreadedCase configuration env cors transport s (.complete k index completion)
        (s.beginHandler env cors transport k index c completion)
  | proceedAccept (k : Nat) (hk : s.inside k = some .accepting) :
      ThreadedCase configuration env cors transport s (.proceed k) (s.proceedAccept k)
  | proceedRead (k index : Nat) (loop : RequestLoop WebService) (c : Connection)
      (s' : ThreadedServer) (hk : s.inside k = some (.processing index loop))
      (hc : s.base.connections[index]? = some c)
      (hproceed : s.proceedRead env cors k index c loop = some s') :
      ThreadedCase configuration env cors transport s (.proceed k) s'

variable {configuration env cors transport} in
/-- **An event is one of the cases**, of a process that has not crashed. -/
theorem threadedStep_cases {s s' : ThreadedServer} {e : ThreadedEvent}
    (h : s.step configuration env cors transport e = some s') :
    s.base.crashed = false ∧ ThreadedCase configuration env cors transport s e s' := by
  unfold ThreadedServer.step at h
  cases e with
  | registerWebService webService =>
    simp only at h
    split at h
    · cases h
    · rename_i hcrashed
      rw [← Option.some.inj h]
      exact ⟨by simpa using hcrashed, .registerWebService webService⟩
  | start os =>
    simp only at h
    split at h
    · rename_i hcall
      split at h
      · cases h
      · rename_i hcrashed
        rw [← Option.some.inj h]
        exact ⟨by simpa using hcrashed, .start os hcall⟩
    · cases h
  | createThread =>
    simp only at h
    split at h
    · rename_i os i hcall
      split at h
      · cases h
      · rename_i hcrashed
        rw [← Option.some.inj h]
        exact ⟨by simpa using hcrashed, .createThread os i hcall⟩
    · cases h
  | stop =>
    simp only at h
    split at h
    · rename_i hcall
      split at h
      · cases h
      · rename_i hcrashed
        rw [← Option.some.inj h]
        exact ⟨by simpa using hcrashed, .stop hcall⟩
    · cases h
  | join =>
    simp only at h
    split at h
    · rename_i hcall
      split at h
      · rename_i hguard
        rw [← Option.some.inj h]
        exact ⟨hguard.1, .join hcall hguard.2⟩
      · cases h
    · cases h
  | accept k index failed =>
    simp only at h
    split at h
    · rename_i hguard
      rw [← Option.some.inj h]
      exact ⟨hguard.1, .accept k index failed hguard.2.1 hguard.2.2⟩
    · cases h
  | complete k index completion =>
    simp only at h
    split at h
    · rename_i hguard
      split at h
      · rename_i c hc
        split at h
        · rename_i hop
          rw [← Option.some.inj h]
          exact ⟨hguard.1, .complete k index completion c hguard.2 hc hop⟩
        · cases h
      · cases h
    · cases h
  | proceed k =>
    simp only at h
    split at h
    · cases h
    · rename_i hcrashed
      refine ⟨by simpa using hcrashed, ?_⟩
      split at h
      · rename_i hk
        rw [← Option.some.inj h]
        exact .proceedAccept k hk
      · rename_i index loop hk
        split at h
        · rename_i c hc
          exact .proceedRead k index loop c s' hk hc h
        · cases h
      · cases h

end Steps

end BoostAsioWebServer
