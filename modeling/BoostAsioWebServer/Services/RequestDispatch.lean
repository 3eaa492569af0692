/-
  File:      BoostAsioWebServer/Services/RequestDispatch.lean
  Subject:   DISPATCH OVER A GROWING REGISTRY: running `processRequest` loops interleaved with
             registrations (`RequestHandlingService.cpp`, `Model/WebServicesMgr.cpp`).

  The loop bound is read once, the registry may grow between any two iterations. Every call to the
  manager and every `IWebService::process` is one event; what a web service answers is up to it.

  * `WebServicesMgr`, `RequestLoop`, `Dispatch.step`: the registry, one running loop, all of them;
  * `RequestLoop.Stands`: the invariant of one loop: what it has called is the services in front of
    its index, each without a reply;
  * `step_loop`: an event moves one loop at most;
  * `firstMatch_run`: over every interleaving a loop is first match over the services counted when
    it began, and ends;
  * `returned_processRequest`: where web services are functions of the request, what a loop returns
    is what `processRequest` computes.
-/
import BoostAsioWebServer.Lib.Runs
import BoostAsioWebServer.Services.ReplyServices

namespace BoostAsioWebServer

open Runs

/-! ## 1. The registry and the loops -/

/-- The registry, in order of registration. -/
structure WebServicesMgr (σ : Type*) where
  webServices : List σ

/-- A call of `IWebService::process`: the service, the request and the reply, if any. -/
structure Consultation (σ : Type*) where
  webService : σ
  request : Request
  reply : Option Reply

/-- Where a running `processRequest` stands. A reply returned is a pointer, null as `none`; after
    an index outside the registry nothing is defined. -/
inductive Phase (σ : Type*) where
  | asking (i : UInt32)
  | calling (i : UInt32) (webService : σ)
  | returned (reply : Option Reply)
  | undefined

/-- A running `processRequest`, with the calls it has made. -/
structure RequestLoop (σ : Type*) where
  request : Request
  nWebServices : UInt32
  phase : Phase σ
  calls : List (Consultation σ)

/-- The registry and the loops over it, in the order they began. -/
structure Dispatch (σ : Type*) where
  mgr : WebServicesMgr σ
  loops : List (RequestLoop σ)

/-- What may happen next: a registration, a loop that begins, the two calls of the loop at `k`. -/
inductive DispatchEvent (σ : Type*) where
  | registerWebService (webService : σ)
  | start (request : Request)
  | getWebService (k : Nat)
  | process (k : Nat) (outcome : Option Reply)

section Dispatching

variable {σ : Type*}

/-- `WebServicesMgr::getWebServiceCount`: the size, cast to `unsigned int`. -/
def WebServicesMgr.getWebServiceCount (mgr : WebServicesMgr σ) : UInt32 :=
  UInt32.ofNat mgr.webServices.length

/-- `WebServicesMgr::getWebService`; `none` where the index is outside the vector. -/
def WebServicesMgr.getWebService (mgr : WebServicesMgr σ) (index : UInt32) : Option σ :=
  mgr.webServices[index.toNat]?

/-- `WebServicesMgr::addWebService`. -/
def WebServicesMgr.addWebService (mgr : WebServicesMgr σ) (webService : σ) : WebServicesMgr σ :=
  ⟨mgr.webServices ++ [webService]⟩

/-- The head of the `for` at `i`: one more iteration, or the NOT_FOUND reply behind the loop. -/
def RequestLoop.next (l : RequestLoop σ) (i : UInt32) : RequestLoop σ :=
  { l with phase :=
      if i < l.nWebServices then .asking i else .returned (some (Reply.ofStatus .notFound)) }

/-- `processRequest` up to its first `getWebService`: the count is read here, and not again. -/
def RequestLoop.start (mgr : WebServicesMgr σ) (request : Request) : RequestLoop σ :=
  RequestLoop.next ⟨request, mgr.getWebServiceCount, .asking 0, []⟩ 0

/-- The call of `getWebService`. -/
def RequestLoop.getWebService (mgr : WebServicesMgr σ) (l : RequestLoop σ) :
    Option (RequestLoop σ) :=
  match l.phase with
  | .asking i =>
    match mgr.getWebService i with
    | some webService => some { l with phase := .calling i webService }
    | none => some { l with phase := .undefined }
  | _ => none

/-- The call of `process`: a reply is returned as it is, without one the loop goes on. -/
def RequestLoop.process (outcome : Option Reply) (l : RequestLoop σ) : Option (RequestLoop σ) :=
  match l.phase with
  | .calling i webService =>
    let l : RequestLoop σ := { l with calls := l.calls ++ [⟨webService, l.request, outcome⟩] }
    match outcome with
    | some reply => some { l with phase := .returned (some reply) }
    | none => some (l.next (i + 1))
  | _ => none

/-- No web service, no loop. -/
def Dispatch.new : Dispatch σ := ⟨⟨[]⟩, []⟩

/-- One event. A loop in another phase than the event's call needs does not make that call. -/
def Dispatch.step (s : Dispatch σ) : DispatchEvent σ → Option (Dispatch σ)
  | .registerWebService webService => some { s with mgr := s.mgr.addWebService webService }
  | .start request => some { s with loops := s.loops ++ [RequestLoop.start s.mgr request] }
  | .getWebService k =>
    (s.loops[k]?.bind (RequestLoop.getWebService s.mgr)).map fun l =>
      { s with loops := s.loops.set k l }
  | .process k outcome =>
    (s.loops[k]?.bind (RequestLoop.process outcome)).map fun l =>
      { s with loops := s.loops.set k l }

/-- The loop whose call the event is. -/
def DispatchEvent.loop : DispatchEvent σ → Option Nat
  | .getWebService k => some k
  | .process k _ => some k
  | _ => none

/-- How many of the events are calls of the loop at `k`. -/
def ownCalls (k : Nat) (es : List (DispatchEvent σ)) : Nat :=
  es.countP fun e => e.loop == some k

/-! ## 2. What first match means -/

/-- The services a loop that begins now counts: all of them, while they are fewer than 2^32. -/
def WebServicesMgr.consulted (mgr : WebServicesMgr σ) : List σ :=
  mgr.webServices.take mgr.getWebServiceCount.toNat

/-- The services are called in order, and none gives a reply. -/
def refused (request : Request) (webServices : List σ) : List (Consultation σ) :=
  webServices.map fun webService => ⟨webService, request, none⟩

/-- What a loop over `consulted` returns, by the calls it made: the reply of the first service
    that gave one, or the fresh NOT_FOUND reply after all of them gave none. -/
inductive LoopResult (consulted : List σ) (request : Request) (calls : List (Consultation σ)) :
    Option Reply → Prop where
  | replied (before behind : List σ) (webService : σ) (reply : Reply)
      (hconsulted : consulted = before ++ webService :: behind)
      (hcalls : calls = refused request before ++ [⟨webService, request, some reply⟩]) :
      LoopResult consulted request calls (some reply)
  | notFound (hcalls : calls = refused request consulted) :
      LoopResult consulted request calls (some (Reply.ofStatus .notFound))

/-- **First match over `consulted`**: no index outside the registry; until the loop returns, the
    calls are the services of some front part, in order, without a reply. What it returns has status
    NOT_FOUND where all of them gave none, or where the one that replied says so. -/
structure FirstMatch (consulted : List σ) (request : Request) (l : RequestLoop σ) : Prop where
  inside : l.phase ≠ .undefined
  running : (∀ reply, l.phase ≠ .returned reply) →
    ∃ before, before <+: consulted ∧ l.calls = refused request before
  returned : ∀ reply, l.phase = .returned reply → LoopResult consulted request l.calls reply
  notFound : ∀ reply, l.phase = .returned (some reply) →
    (reply.status = .notFound ↔ l.calls = refused request consulted ∨
      ∃ call ∈ l.calls, call.reply = some reply ∧ reply.status = .notFound)

/-- **The loop at `k` ends**: it makes two calls for each service at most, and until it has
    returned there is one it can make. -/
structure Ends (consulted : List σ) (k : Nat) (es : List (DispatchEvent σ)) (s : Dispatch σ)
    (l : RequestLoop σ) : Prop where
  bounded : ownCalls k es ≤ 2 * consulted.length
  goesOn : (∃ reply, l.phase = .returned reply) ∨ (s.step (.getWebService k)).isSome ∨
    ∀ outcome, (s.step (.process k outcome)).isSome

/-! ## 3. One loop -/

theorem refused_append (request : Request) (xs ys : List σ) :
    refused request (xs ++ ys) = refused request xs ++ refused request ys := by
  unfold refused
  rw [List.map_append]

theorem consulted_length (mgr : WebServicesMgr σ) :
    mgr.consulted.length = mgr.getWebServiceCount.toNat := by
  unfold WebServicesMgr.consulted
  rw [List.length_take, Nat.min_eq_left]
  unfold WebServicesMgr.getWebServiceCount
  rw [UInt32.toNat_ofNat']
  exact Nat.mod_le _ _

theorem consulted_front (mgr : WebServicesMgr σ) : mgr.consulted <+: mgr.webServices :=
  List.take_prefix _ _

/-- Below 2^32 every registered service is counted. -/
theorem consulted_all {mgr : WebServicesMgr σ} (h : mgr.webServices.length < 2 ^ 32) :
    mgr.consulted = mgr.webServices := by
  unfold WebServicesMgr.consulted WebServicesMgr.getWebServiceCount
  rw [UInt32.toNat_ofNat', Nat.mod_eq_of_lt h, List.take_length]

/-- A reply with status NOT_FOUND is the fresh one, or was given by a service. -/
theorem LoopResult.status_iff {consulted : List σ} {request : Request} {calls : List (Consultation σ)}
    {reply : Reply} (h : LoopResult consulted request calls (some reply)) :
    reply.status = .notFound ↔ calls = refused request consulted ∨
      ∃ call ∈ calls, call.reply = some reply ∧ reply.status = .notFound := by
  cases h with
  | replied before behind webService _ hconsulted hcalls =>
    have hlast : (⟨webService, request, some reply⟩ : Consultation σ) ∈ calls := by
      rw [hcalls]
      exact List.mem_append_right _ (List.mem_singleton.mpr rfl)
    refine ⟨fun h => Or.inr ⟨_, hlast, rfl, h⟩, fun h => ?_⟩
    rcases h with hall | ⟨call, hmem, hreply, hstatus⟩
    · rw [hall] at hlast
      obtain ⟨w, -, hw⟩ := List.mem_map.mp hlast
      cases congrArg Consultation.reply hw
    · exact hstatus
  | notFound hcalls => exact ⟨fun _ => Or.inl hcalls, fun _ => rfl⟩

/-- Where a loop over `consulted` may stand, by the calls it has made. -/
inductive Stage (consulted : List σ) (request : Request) (calls : List (Consultation σ)) :
    Phase σ → Prop where
  | asking (i : UInt32) (before behind : List σ) (webService : σ)
      (hconsulted : consulted = before ++ webService :: behind) (hi : i.toNat = before.length)
      (hcalls : calls = refused request before) : Stage consulted request calls (.asking i)
  | calling (i : UInt32) (before behind : List σ) (webService : σ)
      (hconsulted : consulted = before ++ webService :: behind) (hi : i.toNat = before.length)
      (hcalls : calls = refused request before) :
      Stage consulted request calls (.calling i webService)
  | returned (reply : Option Reply) (hresult : LoopResult consulted request calls reply) :
      Stage consulted request calls (.returned reply)

/-- **The invariant of one loop**: its request, its bound, and where it stands. -/
structure RequestLoop.Stands (consulted : List σ) (request : Request) (l : RequestLoop σ) :
    Prop where
  own : l.request = request
  count : l.nWebServices.toNat = consulted.length
  stage : Stage consulted request l.calls l.phase

/-- How many calls the loop can still make. -/
def RequestLoop.remaining (l : RequestLoop σ) : Nat :=
  match l.phase with
  | .asking i => 2 * (l.nWebServices.toNat - i.toNat)
  | .calling i _ => 2 * (l.nWebServices.toNat - i.toNat) - 1
  | _ => 0

/-- The head of the `for`, behind the services of `before`. -/
theorem stands_next {consulted before behind : List σ} {request : Request} {l : RequestLoop σ}
    {i : UInt32} (hrequest : l.request = request) (hcount : l.nWebServices.toNat = consulted.length)
    (hconsulted : consulted = before ++ behind) (hi : i.toNat = before.length)
    (hcalls : l.calls = refused request before) :
    (l.next i).Stands consulted request ∧ (l.next i).remaining ≤ 2 * behind.length := by
  have hlength : consulted.length = before.length + behind.length := by
    rw [hconsulted, List.length_append]
  have hlt : i < l.nWebServices ↔ behind ≠ [] := by
    rw [UInt32.lt_iff_toNat_lt, hi, hcount, hlength, ← List.length_pos_iff_ne_nil]
    omega
  unfold RequestLoop.next
  cases behind with
  | nil =>
    rw [if_neg (fun h => hlt.mp h rfl)]
    refine ⟨⟨hrequest, hcount, .returned _ (.notFound ?_)⟩, Nat.zero_le _⟩
    rw [hconsulted, List.append_nil]
    exact hcalls
  | cons webService behind =>
    rw [if_pos (hlt.mpr (List.cons_ne_nil _ _))]
    refine ⟨⟨hrequest, hcount, .asking i before behind webService hconsulted hi hcalls⟩, ?_⟩
    show 2 * (l.nWebServices.toNat - i.toNat) ≤ _
    omega

/-- A loop as it begins. -/
theorem stands_start (mgr : WebServicesMgr σ) (request : Request) :
    (RequestLoop.start mgr request).Stands mgr.consulted request ∧
      (RequestLoop.start mgr request).remaining ≤ 2 * mgr.consulted.length :=
  stands_next rfl (consulted_length mgr).symm (List.nil_append _).symm rfl rfl

/-- `getWebService` stays inside a registry that has grown behind the services counted. -/
theorem RequestLoop.Stands.getWebService {consulted : List σ} {request : Request}
    {l l' : RequestLoop σ} {mgr : WebServicesMgr σ} (h : l.Stands consulted request)
    (hgrown : consulted <+: mgr.webServices) (hstep : l.getWebService mgr = some l') :
    l'.Stands consulted request ∧ l'.remaining < l.remaining := by
  obtain ⟨request', n, phase, calls⟩ := l
  obtain ⟨hown, hcount, hstage⟩ := h
  unfold RequestLoop.getWebService at hstep
  cases hstage with
  | asking i before behind webService hconsulted hi hcalls =>
    have hfound : mgr.getWebService i = some webService := by
      obtain ⟨later, hlater⟩ := hgrown
      unfold WebServicesMgr.getWebService
      rw [← hlater, hconsulted, hi, List.append_assoc, List.cons_append,
        List.getElem?_append_right le_rfl, Nat.sub_self]
      rfl
    simp only [hfound, Option.some.injEq] at hstep
    rw [← hstep]
    refine ⟨⟨hown, hcount, .calling i before behind webService hconsulted hi hcalls⟩, ?_⟩
    have hlength : consulted.length = before.length + (behind.length + 1) := by
      rw [hconsulted, List.length_append, List.length_cons]
    have hbound : n.toNat = consulted.length := hcount
    show 2 * (n.toNat - i.toNat) - 1 < 2 * (n.toNat - i.toNat)
    omega
  | calling => cases hstep
  | returned => cases hstep

/-- An index below a bound does not wrap. -/
theorem index_succ {i n : UInt32} (h : i < n) : (i + 1).toNat = i.toNat + 1 := by
  have hlt : i.toNat < n.toNat := UInt32.lt_iff_toNat_lt.mp h
  have hn : n.toNat < 2 ^ 32 := n.toNat_lt
  rw [UInt32.toNat_add]
  show (i.toNat + 1) % 2 ^ 32 = _
  omega

/-- `process` ends the loop with the reply it gives, or takes it to the next index. -/
theorem RequestLoop.Stands.process {consulted : List σ} {request : Request}
    {l l' : RequestLoop σ} {outcome : Option Reply} (h : l.Stands consulted request)
    (hstep : l.process outcome = some l') :
    l'.Stands consulted request ∧ l'.remaining < l.remaining := by
  obtain ⟨request', n, phase, calls⟩ := l
  obtain ⟨hown, hcount, hstage⟩ := h
  unfold RequestLoop.process at hstep
  cases hstage with
  | asking => cases hstep
  | calling i before behind webService hconsulted hi hcalls =>
    have hbound : n.toNat = consulted.length := hcount
    have hrequest : request' = request := hown
    have hbefore : calls = refused request before := hcalls
    have hlength : consulted.length = before.length + (behind.length + 1) := by
      rw [hconsulted, List.length_append, List.length_cons]
    cases outcome with
    | some reply =>
      simp only [Option.some.injEq] at hstep
      rw [← hstep]
      refine ⟨⟨hown, hcount, .returned _ (.replied before behind webService reply hconsulted ?_)⟩,
        ?_⟩
      · show calls ++ [_] = _
        rw [hbefore, hrequest]
      · show 0 < 2 * (n.toNat - i.toNat) - 1
        omega
    | none =>
      simp only [Option.some.injEq] at hstep
      rw [← hstep]
      have hlt : i < n := UInt32.lt_iff_toNat_lt.mpr (by omega)
      have hsucc : (i + 1).toNat = (before ++ [webService]).length := by
        rw [index_succ hlt, hi, List.length_append, List.length_singleton]
      have hsplit : consulted = (before ++ [webService]) ++ behind := by
        rw [hconsulted, List.append_assoc]
        rfl
      have hcalls' : calls ++ [⟨webService, request', none⟩] =
          refused request (before ++ [webService]) := by
        rw [refused_append, hbefore, hrequest]
        rfl
      obtain ⟨hstands, hremaining⟩ := stands_next (l := ⟨request', n, .calling i webService,
        calls ++ [⟨webService, request', none⟩]⟩) hown hcount hsplit hsucc hcalls'
      refine ⟨hstands, Nat.lt_of_le_of_lt hremaining ?_⟩
      show _ < 2 * (n.toNat - i.toNat) - 1
      omega
  | returned => cases hstep

/-- The invariant says all of first match. -/
theorem RequestLoop.Stands.firstMatch {consulted : List σ} {request : Request} {l : RequestLoop σ}
    (h : l.Stands consulted request) : FirstMatch consulted request l := by
  obtain ⟨request', n, phase, calls⟩ := l
  obtain ⟨hown, hcount, hstage⟩ := h
  cases hstage with
  | asking i before behind webService hconsulted hi hcalls =>
    exact ⟨fun h => (by cases h), fun _ => ⟨before, ⟨_, hconsulted.symm⟩, hcalls⟩,
      fun _ h => (by cases h), fun _ h => (by cases h)⟩
  | calling i before behind webService hconsulted hi hcalls =>
    exact ⟨fun h => (by cases h), fun _ => ⟨before, ⟨_, hconsulted.symm⟩, hcalls⟩,
      fun _ h => (by cases h), fun _ h => (by cases h)⟩
  | returned reply hresult =>
    refine ⟨fun h => (by cases h), fun h => absurd rfl (h reply), fun reply' h => ?_,
      fun reply' h => ?_⟩
    · obtain rfl := Phase.returned.inj h
      exact hresult
    · obtain rfl := Phase.returned.inj h
      exact hresult.status_iff

/-! ## 4. All loops -/

/-- The registry only grows. -/
theorem step_mgr {s s' : Dispatch σ} {e : DispatchEvent σ} (h : s.step e = some s') :
    s.mgr.webServices <+: s'.mgr.webServices := by
  cases e with
  | registerWebService webService =>
    obtain rfl := Option.some.inj h
    exact List.prefix_append _ _
  | start request =>
    obtain rfl := Option.some.inj h
    exact List.prefix_rfl
  | getWebService k =>
    obtain ⟨l, -, rfl⟩ := Option.map_eq_some_iff.mp h
    exact List.prefix_rfl
  | process k outcome =>
    obtain ⟨l, -, rfl⟩ := Option.map_eq_some_iff.mp h
    exact List.prefix_rfl

/-- A loop that has taken one of its own two calls. -/
def Called (mgr : WebServicesMgr σ) (l l' : RequestLoop σ) : Prop :=
  l.getWebService mgr = some l' ∨ ∃ outcome, l.process outcome = some l'

/-- The loop at `k` after some loop has been replaced. -/
theorem set_loop {loops : List (RequestLoop σ)} {k j : Nat} {l l' : RequestLoop σ}
    (hk : loops[k]? = some l) :
    (loops.set j l')[k]? = if j = k then some l' else some l := by
  rw [List.getElem?_set, hk]
  have hlt : k < loops.length := (List.getElem?_eq_some_iff.mp hk).1
  by_cases h : j = k
  · rw [if_pos h, if_pos h, if_pos (h ▸ hlt)]
  · rw [if_neg h, if_neg h]

/-- **An event moves the loop whose call it is, and no other.** -/
theorem step_loop {s s' : Dispatch σ} {e : DispatchEvent σ} {k : Nat} {l : RequestLoop σ}
    (h : s.step e = some s') (hk : s.loops[k]? = some l) :
    (e.loop ≠ some k ∧ s'.loops[k]? = some l) ∨
      (e.loop = some k ∧ ∃ l', s'.loops[k]? = some l' ∧ Called s.mgr l l') := by
  have hlt : k < s.loops.length := (List.getElem?_eq_some_iff.mp hk).1
  -- the two calls of the loop at `j` differ in what they do to it only
  have hcall (j : Nat) (f : RequestLoop σ → Option (RequestLoop σ))
      (hf : ∀ l', f l = some l' → Called s.mgr l l') (hj : e.loop = some j)
      (hs : (s.loops[j]?.bind f).map (fun l => { s with loops := s.loops.set j l }) = some s') :
      (e.loop ≠ some k ∧ s'.loops[k]? = some l) ∨
        (e.loop = some k ∧ ∃ l', s'.loops[k]? = some l' ∧ Called s.mgr l l') := by
    obtain ⟨l', hl', rfl⟩ := Option.map_eq_some_iff.mp hs
    by_cases hjk : j = k
    · subst hjk
      rw [hk, Option.bind_some] at hl'
      exact Or.inr ⟨hj, l', (set_loop hk).trans (if_pos rfl), hf l' hl'⟩
    · refine Or.inl ⟨fun h => hjk (Option.some.inj (hj.symm.trans h)), ?_⟩
      exact (set_loop hk).trans (if_neg hjk)
  cases e with
  | registerWebService webService =>
    obtain rfl := Option.some.inj h
    exact Or.inl ⟨fun h => (by cases h), hk⟩
  | start request =>
    obtain rfl := Option.some.inj h
    exact Or.inl ⟨fun h => (by cases h), (List.getElem?_append_left hlt).trans hk⟩
  | getWebService j => exact hcall j _ (fun l' hl' => Or.inl hl') rfl h
  | process j outcome => exact hcall j _ (fun l' hl' => Or.inr ⟨outcome, hl'⟩) rfl h

/-- What holds of the loop at `k` after the events since it began. -/
structure Running (consulted : List σ) (request : Request) (k : Nat)
    (es : List (DispatchEvent σ)) (s : Dispatch σ) : Prop where
  grown : consulted <+: s.mgr.webServices
  loop : ∃ l, s.loops[k]? = some l ∧ l.Stands consulted request ∧
    ownCalls k es + l.remaining ≤ 2 * consulted.length

theorem ownCalls_snoc (k : Nat) (es : List (DispatchEvent σ)) (e : DispatchEvent σ) :
    ownCalls k (es ++ [e]) = ownCalls k es + if e.loop = some k then 1 else 0 := by
  unfold ownCalls
  rw [List.countP_append, List.countP_singleton]
  simp only [beq_iff_eq]

/-- Every event keeps it. -/
theorem running_step {consulted : List σ} {request : Request} {k : Nat}
    {es : List (DispatchEvent σ)} {s s' : Dispatch σ} {e : DispatchEvent σ}
    (h : Running consulted request k es s) (hstep : s.step e = some s') :
    Running consulted request k (es ++ [e]) s' := by
  obtain ⟨hgrown, l, hk, hstands, hcalls⟩ := h
  refine ⟨hgrown.trans (step_mgr hstep), ?_⟩
  rw [ownCalls_snoc]
  rcases step_loop hstep hk with ⟨hother, hl⟩ | ⟨hown, l', hl', hcalled⟩
  · rw [if_neg hother]
    exact ⟨l, hl, hstands, hcalls⟩
  · rw [if_pos hown]
    have hmoved : l'.Stands consulted request ∧ l'.remaining < l.remaining := by
      rcases hcalled with hasked | ⟨outcome, hanswered⟩
      · exact hstands.getWebService hgrown hasked
      · exact hstands.process hanswered
    exact ⟨l', hl', hmoved.1, by have := hmoved.2; omega⟩

/-- A loop as it begins, over whatever state. -/
theorem running_start (s : Dispatch σ) (request : Request) :
    Running s.mgr.consulted request s.loops.length []
      { s with loops := s.loops ++ [RequestLoop.start s.mgr request] } := by
  obtain ⟨hstands, hremaining⟩ := stands_start s.mgr request
  refine ⟨consulted_front s.mgr, _, List.getElem?_concat_length, hstands, ?_⟩
  rw [show ownCalls s.loops.length ([] : List (DispatchEvent σ)) = 0 from rfl, Nat.zero_add]
  exact hremaining

/-- A loop that has not returned has a call to make. -/
theorem RequestLoop.Stands.goesOn {consulted : List σ} {request : Request} {k : Nat}
    {s : Dispatch σ} {l : RequestLoop σ} (h : l.Stands consulted request)
    (hk : s.loops[k]? = some l) :
    (∃ reply, l.phase = .returned reply) ∨ (s.step (.getWebService k)).isSome ∨
      ∀ outcome, (s.step (.process k outcome)).isSome := by
  obtain ⟨request', n, phase, calls⟩ := l
  cases h.stage with
  | asking i =>
    refine Or.inr (Or.inl ?_)
    simp only [Dispatch.step, hk, Option.bind_some, Option.isSome_map, RequestLoop.getWebService]
    cases s.mgr.getWebService i with
    | some webService => rfl
    | none => rfl
  | calling i =>
    refine Or.inr (Or.inr fun outcome => ?_)
    simp only [Dispatch.step, hk, Option.bind_some, Option.isSome_map, RequestLoop.process]
    cases outcome with
    | some reply => rfl
    | none => rfl
  | returned reply => exact Or.inl ⟨reply, rfl⟩

/-- Over every run, from any state. -/
theorem running_run {s s' : Dispatch σ} {request : Request} {es : List (DispatchEvent σ)}
    (h : Run Dispatch.step s (.start request :: es) s') :
    Running s.mgr.consulted request s.loops.length es s' := by
  obtain ⟨t, ht, hrun⟩ := Run.cons_iff.mp h
  obtain rfl := Option.some.inj ht
  exact Run.history (I := fun es s' => Running s.mgr.consulted request s.loops.length es s')
    (fun _ _ _ _ => running_step) (running_start s request) hrun

/-- **Dispatch is first match over a growing registry**: from any state, whatever is registered and
    whatever other loops do after it began, a `processRequest` loop is first match over the services
    it counted, and ends. -/
theorem firstMatch_run {s s' : Dispatch σ} {request : Request} {es : List (DispatchEvent σ)}
    (h : Run Dispatch.step s (.start request :: es) s') :
    (s.mgr.webServices.length < 2 ^ 32 → s.mgr.consulted = s.mgr.webServices) ∧
      ∃ l, s'.loops[s.loops.length]? = some l ∧ FirstMatch s.mgr.consulted request l ∧
        Ends s.mgr.consulted s.loops.length es s' l := by
  obtain ⟨-, l, hl, hstands, hcalls⟩ := running_run h
  exact ⟨consulted_all, l, hl, hstands.firstMatch, Nat.le_of_add_right_le hcalls,
    hstands.goesOn hl⟩

/-- A service registered while the loop runs is not asked; one behind the reply neither. -/
theorem firstMatch_run_grown : ∃ (s : Dispatch Nat) (l : RequestLoop Nat),
    FirstMatch [1, 2] {} l ∧ l.phase = .returned (some (Reply.ofStatus .ok)) ∧
      Ends [1, 2] 0 [.getWebService 0, .registerWebService 3, .process 0 none, .getWebService 0,
        .process 0 (some (Reply.ofStatus .ok))] s l := by
  have hrun : Run Dispatch.step (⟨⟨[1, 2]⟩, []⟩ : Dispatch Nat)
      (.start {} :: [.getWebService 0, .registerWebService 3, .process 0 none, .getWebService 0,
        .process 0 (some (Reply.ofStatus .ok))])
      ⟨⟨[1, 2, 3]⟩, [⟨{}, 2, .returned (some (Reply.ofStatus .ok)),
        [⟨1, {}, none⟩, ⟨2, {}, some (Reply.ofStatus .ok)⟩]⟩]⟩ := rfl
  obtain ⟨-, l, hl, hfirst, hends⟩ := firstMatch_run hrun
  obtain rfl := Option.some.inj hl
  exact ⟨_, _, hfirst, rfl, hends⟩

/-! ## 5. What the registry and the services decide -/

/-- Registering services one after another. -/
theorem run_registerWebService (s : Dispatch σ) (webServices : List σ) :
    Run Dispatch.step s (webServices.map .registerWebService)
      { s with mgr := ⟨s.mgr.webServices ++ webServices⟩ } := by
  induction webServices generalizing s with
  | nil => simp
  | cons webService webServices ih =>
    rw [List.map_cons, Run.cons_iff]
    refine ⟨{ s with mgr := s.mgr.addWebService webService }, rfl, ?_⟩
    have hrest := ih { s with mgr := s.mgr.addWebService webService }
    unfold WebServicesMgr.addWebService at hrest ⊢
    simpa only [List.append_assoc, List.singleton_append] using hrest

/-- A reply with status NOT_FOUND though the service asked gave one; and of 2^32 services the count
    is 0, so that none is asked. -/
theorem notFound_of_reply_and_of_wrap :
    (∃ l : RequestLoop Unit,
      Run Dispatch.step .new [.registerWebService (), .start {}, .getWebService 0,
        .process 0 (some (Reply.ofStatus .notFound))] ⟨⟨[()]⟩, [l]⟩ ∧
      l.phase = .returned (some (Reply.ofStatus .notFound)) ∧
      ¬ ∀ call ∈ l.calls, call.reply = none) ∧
    ∃ l : RequestLoop Unit,
      Run Dispatch.step .new ((List.replicate (2 ^ 32) ()).map .registerWebService ++ [.start {}])
        ⟨⟨List.replicate (2 ^ 32) ()⟩, [l]⟩ ∧
      l.phase = .returned (some (Reply.ofStatus .notFound)) ∧ l.calls = [] := by
  refine ⟨⟨⟨{}, 1, .returned (some (Reply.ofStatus .notFound)),
    [⟨(), {}, some (Reply.ofStatus .notFound)⟩]⟩, rfl, rfl, fun h => ?_⟩, ?_⟩
  · cases h _ List.mem_cons_self
  · refine ⟨⟨{}, 0, .returned (some (Reply.ofStatus .notFound)), []⟩, ?_, rfl, rfl⟩
    refine Run.append_iff.mpr ⟨_, run_registerWebService .new _, ?_⟩
    rw [Run.cons_iff]
    refine ⟨_, rfl, Run.nil_iff.mpr ?_⟩
    have hcount : WebServicesMgr.getWebServiceCount ⟨List.replicate (2 ^ 32) ()⟩ = 0 := by
      unfold WebServicesMgr.getWebServiceCount
      rw [List.length_replicate]
      rfl
    unfold RequestLoop.start Dispatch.new
    rw [List.nil_append, hcount]
    rfl

end Dispatching

/-- The loop of `processRequest` behind services that give no reply. -/
theorem processFrom_append {request : Request} {before : List WebService}
    (h : ∀ webService ∈ before, webService request = none) (behind : List WebService) (i : Nat) :
    processFrom request i (before ++ behind) =
      ((List.range' i before.length).map (⟨·, request⟩) ++
        (processFrom request (i + before.length) behind).1,
        (processFrom request (i + before.length) behind).2) := by
  induction before generalizing i with
  | nil => rfl
  | cons webService before ih =>
    rw [List.cons_append, processFrom, h webService List.mem_cons_self]
    rw [ih (fun w hw => h w (List.mem_cons_of_mem _ hw)), List.length_cons, Nat.add_right_comm i,
      Nat.add_assoc i, List.range'_succ]
    rfl

/-- **Where web services are functions of the request**, what first match returns is the reply of
    `processRequest`, and it makes its calls. -/
theorem LoopResult.processRequest {consulted : List WebService} {request : Request}
    {calls : List (Consultation WebService)} {reply : Option Reply}
    (h : LoopResult consulted request calls reply)
    (hfunction : ∀ call ∈ calls, call.reply = call.webService request) :
    reply = some (processRequest consulted request).2 ∧
      (processRequest consulted request).1 = (List.range calls.length).map (⟨·, request⟩) := by
  have hrefused (before : List WebService) (hin : ∀ call ∈ refused request before, call ∈ calls) :
      ∀ webService ∈ before, webService request = none := fun webService hmem =>
    (hfunction _ (hin _ (List.mem_map_of_mem hmem))).symm
  unfold BoostAsioWebServer.processRequest
  cases h with
  | replied before behind webService reply hconsulted hcalls =>
    have hlast : webService request = some reply := by
      refine (hfunction ⟨webService, request, some reply⟩ ?_).symm
      rw [hcalls]
      exact List.mem_append_right _ (List.mem_singleton.mpr rfl)
    have hbefore := hrefused before fun call hcall => by
      rw [hcalls]
      exact List.mem_append_left _ hcall
    rw [hconsulted, processFrom_append hbefore, processFrom, hlast, hcalls]
    refine ⟨rfl, ?_⟩
    rw [refused, List.length_append, List.length_map, List.length_singleton, List.range_succ,
      List.map_append, List.range_eq_range', Nat.zero_add]
    rfl
  | notFound hcalls =>
    have hbefore := hrefused consulted fun call hcall => hcalls ▸ hcall
    have hfrom := processFrom_append hbefore [] 0
    rw [List.append_nil] at hfrom
    rw [hfrom, hcalls]
    refine ⟨rfl, ?_⟩
    rw [refused, List.length_map, List.range_eq_range']
    exact List.append_nil _

/-- **The sequential loop is what any interleaving computes**: a loop that has returned gives the
    reply of `processRequest` over the services it counted. -/
theorem returned_processRequest {s s' : Dispatch WebService} {request : Request}
    {es : List (DispatchEvent WebService)} {l : RequestLoop WebService} {reply : Option Reply}
    (h : Run Dispatch.step s (.start request :: es) s') (hl : s'.loops[s.loops.length]? = some l)
    (hreturned : l.phase = .returned reply)
    (hfunction : ∀ call ∈ l.calls, call.reply = call.webService request) :
    reply = some (processRequest s.mgr.consulted request).2 := by
  obtain ⟨-, l', hl', hstands, -⟩ := running_run h
  obtain rfl := Option.some.inj (hl.symm.trans hl')
  exact ((hstands.firstMatch.returned reply hreturned).processRequest hfunction).1

end BoostAsioWebServer
