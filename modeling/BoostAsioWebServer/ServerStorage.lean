/-
  File:      BoostAsioWebServer/ServerStorage.lean
  Subject:   WHAT A CONNECTION STORES: no more than it received, and no limit to that.

  * `consume_stored`: a byte is stored once at most, in the header under way or in the request;
  * `parse_stored`: the decoded target and its items are no longer than the target was;
  * `storage_bounded`: over every interleaving no connection stores more bytes than it received; and
    a connection that waits for the end of its request line stores any number of them.
-/
import BoostAsioWebServer.Agents.RequestParserAccepts
import BoostAsioWebServer.ServerInterleaving
import BoostAsioWebServer.Services.QueryString
import BoostAsioWebServer.Services.RequestURIDecoding

namespace BoostAsioWebServer

open ByteText Feed Runs

/-! ## 1. The parser -/

/-- The bytes of some pairs. -/
def pairsLength (pairs : List (Bytes × Bytes)) : Nat :=
  (pairs.flatMap fun pair => pair.1 ++ pair.2).length

@[simp] theorem pairsLength_nil : pairsLength [] = 0 := rfl

@[simp] theorem pairsLength_append (pairs pairs' : List (Bytes × Bytes)) :
    pairsLength (pairs ++ pairs') = pairsLength pairs + pairsLength pairs' := by
  rw [pairsLength, List.flatMap_append, List.length_append, pairsLength, pairsLength]

@[simp] theorem pairsLength_cons (pair : Bytes × Bytes) (pairs : List (Bytes × Bytes)) :
    pairsLength (pair :: pairs) = pair.1.length + pair.2.length + pairsLength pairs := by
  rw [pairsLength, List.flatMap_cons, List.length_append, List.length_append, pairsLength]

/-- The bytes a request holds. -/
def Request.stored (request : Request) : Nat :=
  request.method.length + request.uri.length + pairsLength request.queryStrings +
    pairsLength request.headers + request.content.length

/-- The bytes the parser holds: the request and the header under way. -/
def Parse.stored (p : Parse) : Nat :=
  p.request.stored + (p.agent.header.1.length + p.agent.header.2.length)

/-- **A byte is stored once at most.** -/
theorem consume_stored (lexicalCast : Bytes → Option Int32) (p : Parse) (c : UInt8) :
    (consume lexicalCast p c).1.stored ≤ p.stored + 1 := by
  obtain ⟨⟨state, header, length, size⟩, request⟩ := p
  cases state
  all_goals
    simp only [consume, Parse.stored, Request.stored]
    split_ifs
  all_goals
    simp
    try omega

/-! ## 2. The target -/

/-- A decoded text is no longer than the text with its escapes. -/
theorem Decodes.length_le {esc : UInt8 → UInt8 → UInt8 → Prop} {uri out : Bytes}
    (h : Decodes esc uri out) : out.length ≤ uri.length := by
  induction h with
  | nil => exact Nat.le_refl _
  | kept _ _ ih => exact Nat.succ_le_succ ih
  | plus _ ih => exact Nat.succ_le_succ ih
  | escape _ _ ih => exact (Nat.succ_le_succ ih).trans (Nat.le_add_right _ 2)

/-- The item of a segment leaves out its `=`. -/
theorem IsItem.length_lt {segment : Bytes} {item : Bytes × Bytes} (h : IsItem segment item) :
    item.1.length + item.2.length < segment.length := by
  obtain ⟨front, rfl, -⟩ := h
  rw [List.length_append, List.length_append, List.length_cons]
  omega

/-- The segments of a query leave out its `&`s. -/
theorem length_flatten_splitOn (query : Bytes) :
    (query.splitOn (chr '&')).flatten.length ≤ query.length := by
  induction query with
  | nil => simp
  | cons b bs ih =>
    obtain ⟨first, rest, hsplit⟩ := List.exists_cons_of_ne_nil (List.splitOn_ne_nil (chr '&') bs)
    rw [List.splitOn_cons_eq_if_modifyHead]
    split
    · rw [List.flatten_cons, List.nil_append]
      exact ih.trans (Nat.le_succ _)
    · rw [hsplit, List.flatten_cons] at ih
      rw [hsplit, List.modifyHead_cons, List.flatten_cons, List.cons_append]
      exact Nat.succ_le_succ ih

/-- The items of a query are no longer than the query. -/
theorem pairsLength_scanItems (query : Bytes) : pairsLength (scanItems query) ≤ query.length := by
  refine Nat.le_trans ?_ (length_flatten_splitOn query)
  unfold scanItems
  induction query.splitOn (chr '&') with
  | nil => exact Nat.le_refl _
  | cons segment segments ih =>
    rw [List.filterMap_cons, List.flatten_cons, List.length_append]
    cases hitem : scanItem [] segment with
    | none => exact ih.trans (Nat.le_add_left _ _)
    | some item =>
      have hlt := ((scanItem_iff segment item).mp hitem).length_lt
      rw [pairsLength_cons]
      omega

/-- **The URI parser stores no more than it was given**: the path and the items are no longer than
    the target. -/
theorem parse_stored (request : Request) :
    (RequestURIParserService.parse request).1.stored ≤ request.stored := by
  rcases parse_cases request with ⟨out, haccepted, hparse⟩ | ⟨-, hparse⟩
  · have hout := (decode_eq_some_iff.mp haccepted.1).length_le
    have hitems := pairsLength_scanItems (behindQuery out)
    have hpath : (textBefore (chr '?') out).length ≤ out.length :=
      (List.takeWhile_prefix _).length_le
    have hquery : (behindQuery out).length =
        out.length - ((textBefore (chr '?') out).length + 1) := List.length_drop
    rw [hparse, parseQueryString_eq]
    simp only [Request.stored, pairsLength_append]
    omega
  · rw [hparse]

/-! ## 3. A connection -/

section Storage

variable {services : Services} {transport : Transport}

/-- **A completion adds the bytes it brings at most.** -/
theorem handle_stored (c : Connection) (e : Completion) :
    (c.handle services transport e).parse.stored ≤ c.parse.stored + e.received.length := by
  cases e with
  | handshake failed =>
    cases failed with
    | true => exact Nat.le_refl _
    | false => exact Nat.le_refl _
  | read data =>
    have hfeed := feed_measure (consume_stored services.env.lexicalCast) c.parse data.bytes
    rw [handle_read]
    rcases hp : feed (consume services.env.lexicalCast) c.parse data.bytes with ⟨p, o⟩
    rw [hp] at hfeed
    cases o with
    | none =>
      rw [Connection.afterRead, hp]
      exact hfeed
    | some verdict =>
      rw [afterRead_verdict services hp]
      refine Nat.le_trans ?_ hfeed
      exact Nat.add_le_add_right (parse_stored p.request) _
  | readFailed =>
    cases transport with
    | plain => exact Nat.le_refl _
    | secured => exact Nat.le_refl _
  | write failed =>
    rw [Connection.handle_write]
    exact Nat.le_refl _

/-- A connection on its own stores no more than it received. -/
theorem run_stored {es : List Completion} {c : Connection}
    (hrun : Run (Connection.complete services transport) (transport.start .built) es c) :
    c.parse.stored ≤ (received es).length := by
  have hstart : (transport.start .built).parse.stored ≤ (received []).length := by
    cases transport with
    | plain => exact Nat.le_refl _
    | secured => exact Nat.le_refl _
  refine Run.history (I := fun es c => c.parse.stored ≤ (received es).length)
    (fun es c e c' hc hstep => ?_) hstart hrun
  unfold Connection.complete at hstep
  split at hstep
  · rw [← Option.some.inj hstep, received_append, List.length_append]
    refine (handle_stored c e).trans (Nat.add_le_add hc ?_)
    exact le_of_eq (congrArg List.length (List.append_nil _).symm)
  · cases hstep

/-- As long as there is no verdict the reads of a connection complete one after another. -/
theorem reads_complete {c : Connection} (hpending : c.pending = some .read) {cut : List ReadData}
    {p : Parse} (hfeed : feed (consume services.env.lexicalCast) c.parse (bytesOf cut) = (p, none)) :
    ∃ c', Run (Connection.complete services transport) c (cut.map .read) c' ∧
      c'.pending = some .read ∧ c'.parse = p := by
  induction cut generalizing c with
  | nil => exact ⟨c, Run.nil_iff.mpr rfl, hpending, congrArg Prod.fst hfeed⟩
  | cons data cut ih =>
    have hbytes : bytesOf (data :: cut) = data.bytes ++ bytesOf cut := List.flatMap_cons
    rw [hbytes] at hfeed
    obtain ⟨t, ht⟩ := feed_prefix_none hfeed
    rw [feed_append_none ht] at hfeed
    have hstep : c.complete services transport (.read data) = some (c.afterRead services data) := by
      rw [← handle_read services transport]
      exact if_pos hpending
    have hread : (c.afterRead services data).pending = some .read ∧
        (c.afterRead services data).parse = t := by
      rw [Connection.afterRead, ht]
      exact ⟨rfl, rfl⟩
    rw [← hread.2] at hfeed
    obtain ⟨c', hrun, hc'⟩ := ih hread.1 hfeed
    exact ⟨c', Run.cons_iff.mpr ⟨_, hstep, hrun⟩, hc'⟩

/-- **There is no limit**: a connection that waits for the end of the target has stored all of it. -/
theorem target_stored {cut : List ReadData} {u : Bytes} (hu : ∀ b ∈ u, IsUriByte b)
    (hcut : bytesOf cut = ascii "GET " ++ u) :
    ∃ c, Run (Connection.complete services transport) transport.ready (cut.map .read) c ∧
      c.pending = some .read ∧ c.parse.stored = u.length + 3 := by
  obtain ⟨hpending, hparse, -⟩ := ready_waiting transport
  have hmethod : feed (consume services.env.lexicalCast) .fresh (ascii "GET ") =
      (⟨⟨.uri, ([], []), 0, 0⟩, { method := ascii "GET" }⟩, none) := rfl
  have hfeed := (feed_append_none hmethod u).trans (feed_uri services.env.lexicalCast hu)
  rw [← hcut, ← hparse] at hfeed
  obtain ⟨c, hrun, hc, hp⟩ := reads_complete hpending hfeed
  refine ⟨c, hrun, hc, ?_⟩
  rw [hp]
  show 3 + u.length + 0 + 0 + 0 + (0 + 0) = u.length + 3
  omega

/-! ## 4. The theorem -/

variable {configuration : Configuration} {env : External} {cors : CORSConfiguration}

variable (transport) in
/-- **What a connection stores**, over every interleaving: in its request and its parser no more
    bytes than it received, before the target is decoded and behind it. And for every target that is
    not at its end, however long and in whatever reads, a connection stores all of it and reads
    on. -/
theorem storage_bounded {es : List ThreadedEvent} {s : ThreadedServer}
    (hrun : Run (ThreadedServer.step configuration env cors transport) .new es s) :
    (∀ i c, s.base.connections[i]? = some c →
      c.parse.stored ≤ (received (completionsOf i (wholes es))).length) ∧
    ∀ webServices cut u, (∀ b ∈ u, IsUriByte b) → bytesOf cut = ascii "GET " ++ u →
      ∃ c, Run (Connection.complete ⟨env, webServices, cors⟩ transport) transport.ready
          (cut.map .read) c ∧
        c.pending = some .read ∧ c.parse.stored = u.length + 3 := by
  refine ⟨fun i c hc => ?_, fun webServices cut u hu hcut => target_stored hu hcut⟩
  cases (threaded_run hrun).alone i c hc with
  | built _ _ _ hbuilt =>
    rw [hbuilt]
    exact Nat.zero_le _
  | waiting _ _ _ hown => exact run_stored (hown [])
  | answered _ _ _ hown => exact run_stored hown
  | @processing before k data after p verdict c₀ loop _ hverdict _ _ hafter _ _ hstate =>
    -- the parser has read the bytes of the handler under way, and the target is decoded
    have hfeed := feed_measure (consume_stored env.lexicalCast) .fresh
      (received (completionsOf i (wholes before)) ++ data.bytes)
    rw [hverdict.brings, List.length_append] at hfeed
    have hreceived : (received (completionsOf i (wholes es))).length =
        (received (completionsOf i (wholes before))).length + data.bytes.length := by
      rw [hverdict.completions, hafter, received_append, List.length_append]
      simp [received, Completion.received]
    have hfresh : Parse.fresh.stored = 0 := rfl
    have hdecoded := parse_stored p.request
    have hparse : c.parse.stored ≤ p.stored := by
      rw [hstate]
      exact Nat.add_le_add_right hdecoded _
    have hp : p.stored ≤ _ := hfeed
    omega

end Storage

/-! ## 5. Two reads -/

/-- A target whose query is decoded and split, and a target that is not at its end. -/
theorem storage_bounded_two :
    let data : ReadData := ⟨ascii "GET /a%2fb?x+y=1&z=2 HTTP/1.0\r\n\r\n", by decide, by decide⟩
    let more : ReadData := ⟨ascii "GET /a%2fb?x+y=1&z=2", by decide, by decide⟩
    let es : List ThreadedEvent :=
      [.start .good, .createThread, .createThread, .accept 0 0 false, .proceed 0,
        .complete 0 0 (.read data)]
    ∃ s c, Run (ThreadedServer.step .oneThread .reference .off .plain) .new es s ∧
      s.base.connections[0]? = some c ∧
      c.request.queryStrings = [(ascii "y", ascii "1"), (ascii "z", ascii "2")] ∧
      c.parse.stored ≤ 33 ∧
      ∃ c', Run (Connection.complete ⟨.reference, [], .off⟩ .plain) Transport.plain.ready
        [.read more] c' ∧ c'.parse.stored = 19 := by
  intro data more es
  have hend : (es.foldlM (ThreadedServer.step .oneThread .reference .off .plain) .new).any
      (fun s => s.base.connections[0]?.any fun c =>
        c.request.queryStrings = [(ascii "y", ascii "1"), (ascii "z", ascii "2")]) = true := by
    decide +kernel
  obtain ⟨s, hrun, hs⟩ := (Option.any_eq_true _ _).mp hend
  obtain ⟨c, hc, hitems⟩ := (Option.any_eq_true _ _).mp hs
  obtain ⟨hbounded, hunbounded⟩ := storage_bounded .plain hrun
  obtain ⟨c', hrun', -, hstored⟩ := hunbounded [] [more] (ascii "/a%2fb?x+y=1&z=2")
    (by decide +kernel) rfl
  exact ⟨s, c, hrun, hc, of_decide_eq_true hitems, hbounded 0 c hc, c', hrun', hstored⟩

end BoostAsioWebServer
