/-
  File:      BoostAsioWebServer/ServerVerdicts.lean
  Subject:   WHEN A CONNECTION IS DECIDED, over every interleaving of the server's threads.

  The grammar alone says when: with the first byte that completes a request, or that no request
  can come behind (RequestParserVerdicts.lean). A connection waits no longer than that, whatever
  the cut of its bytes into reads, and is not decided before.

  * `ThreadedAlone.parsed_iff`: the verdict in a connection's log is that of the bytes received;
  * `verdict_earliest`: each verdict falls in the read that brings the deciding byte, and a
    connection without a verdict has received the beginning of a request.
-/
import BoostAsioWebServer.Agents.RequestParserVerdicts
import BoostAsioWebServer.Connections.Gate
import BoostAsioWebServer.ServerInterleaving

namespace BoostAsioWebServer

open ByteText Feed Runs

/-! ## 1. The verdict in the log -/

section Verdict

variable {configuration : Configuration} {env : External} {cors : CORSConfiguration}
  {transport : Transport}

/-- The verdict in the log of a connection on its own. -/
theorem Serving.parsed_iff {services : Services} {bytes : Bytes} {c : Connection}
    (h : Serving services bytes c) (verdict : Bool) :
    Action.parsed (some verdict) ∈ c.log ↔
      (feed (consume services.env.lexicalCast) .fresh bytes).2 = some verdict := by
  cases h with
  | waiting _ hparse hlog =>
    rw [hparse]
    exact ⟨fun hmem => absurd ⟨verdict, hmem⟩ hlog.not_hasVerdict, fun h => by cases h⟩
  | answered _ hparse hlog =>
    rw [hparse, hlog.verdict_iff]
    exact ⟨fun h => congrArg some h.symm, fun h => (Option.some.inj h).symm⟩

/-- The same where threads handle the completions: no thread inside of the connection, it is as on
    its own. -/
theorem ThreadedAlone.parsed_iff {es : List ThreadedEvent} {inside : Nat → Option Job} {i : Nat}
    {c : Connection} (h : ThreadedAlone env cors transport es inside i c)
    (haccepted : i ∈ accepted (wholes es)) (hfree : Free inside i) (verdict : Bool) :
    Action.parsed (some verdict) ∈ c.log ↔ (feed (consume env.lexicalCast) .fresh
      (received (completionsOf i (wholes es)))).2 = some verdict := by
  cases h with
  | built hnot => exact absurd haccepted hnot
  | waiting _ _ _ hrun => exact (serving_run transport (hrun [])).parsed_iff verdict
  | @processing _ k _ _ _ _ _ loop _ _ _ _ _ hinside =>
    exact absurd ((hinside k loop).mpr ⟨rfl, rfl⟩) (hfree k loop)
  | answered _ _ _ hrun => exact (serving_run transport hrun).parsed_iff verdict

/-- A connection with a verdict has the read that brought it. -/
theorem ThreadedAlone.verdictAt {es : List ThreadedEvent} {inside : Nat → Option Job} {i : Nat}
    {c : Connection} (h : ThreadedAlone env cors transport es inside i c)
    (haccepted : i ∈ accepted (wholes es)) (hfree : Free inside i) {verdict : Bool}
    (hverdict : (feed (consume env.lexicalCast) .fresh
      (received (completionsOf i (wholes es)))).2 = some verdict) :
    ∃ before k data after p verdict', VerdictAt env es i before k data after p verdict' := by
  rcases h.writes haccepted hfree with
    ⟨hnone, -⟩ | ⟨before, k, data, after, p, verdict', hat, -⟩
  · rw [served_some (Prod.ext rfl hverdict)] at hnone
    cases hnone
  · exact ⟨before, k, data, after, p, verdict', hat⟩

/-! ## 2. The theorem -/

/-- **A connection is decided as early as can be**, over every interleaving, every cut of what it
    receives into reads, either transport. On an accepted connection that no thread is inside of, a
    verdict was given exactly where a front part of the bytes settles it, and then in the read that
    brought the last byte of that part; and as long as there is none, a request can still come of
    the bytes. -/
theorem verdict_earliest {es : List ThreadedEvent} {s : ThreadedServer}
    (hrun : Run (ThreadedServer.step configuration env cors transport) .new es s) {i : Nat}
    {c : Connection} (hc : s.base.connections[i]? = some c) (hi : i ∈ accepted (wholes es))
    (hfree : Free s.inside i) {bytes : Bytes}
    (hbytes : received (completionsOf i (wholes es)) = bytes) :
    (∀ verdict, Action.parsed (some verdict) ∈ c.log ↔
      ∃ k ≤ bytes.length, Settles env.lexicalCast verdict (bytes.take k)) ∧
    (∀ verdict k, k ≤ bytes.length → Settles env.lexicalCast verdict (bytes.take k) →
      ∃ before t data after, es = before ++ .complete t i (.read data) :: after ∧
        (received (completionsOf i (wholes before))).length < k ∧
        k ≤ (received (completionsOf i (wholes before)) ++ data.bytes).length) ∧
    ((∀ verdict, Action.parsed (some verdict) ∉ c.log) ↔ Begins env.lexicalCast bytes) := by
  have halone := (threaded_run hrun).alone i c hc
  have hparsed := halone.parsed_iff hi hfree
  rw [hbytes] at hparsed
  refine ⟨fun verdict => ?_, fun verdict k hk hsettles => ?_, ?_⟩
  · rw [hparsed, feed_some_settles]
  · have hanswers := (answersAt_iff_settles env.lexicalCast bytes k verdict).mpr ⟨hk, hsettles⟩
    have hsome := feed_some_iff.mpr ⟨k, hanswers⟩
    rw [← hbytes] at hsome
    obtain ⟨before, t, data, after, p, verdict', hat⟩ := halone.verdictAt hi hfree hsome
    rw [← hbytes, hat.stream] at hanswers
    have hwithin := answersAt_within hat.waits (congrArg Prod.snd hat.brings) hanswers
    exact ⟨before, t, data, after, hat.split, hwithin.1, hwithin.2⟩
  · rw [← feed_none_begins]
    constructor
    · intro hno
      cases hverdict : (feed (consume env.lexicalCast) .fresh bytes).2 with
      | none => rfl
      | some verdict => exact absurd ((hparsed verdict).mpr hverdict) (hno verdict)
    · intro hnone verdict hmem
      rw [hparsed, hnone] at hmem
      cases hmem

end Verdict

/-! ## 3. A name that is not HTTP -/

/-- The ninth byte spells a name that is not `HTTP`; it comes with the second read, and the
    connection is decided there. -/
theorem verdict_earliest_name :
    let es : List ThreadedEvent :=
      [.start .good, .createThread, .createThread, .accept 0 0 false, .proceed 0,
        .complete 0 0 (.read ⟨ascii "GET / H", by decide, by decide⟩),
        .complete 0 0 (.read ⟨ascii "TPT/1.0", by decide, by decide⟩), .proceed 0]
    ∃ s c, Run (ThreadedServer.step .oneThread .reference .off .plain) .new es s ∧
      s.base.connections[0]? = some c ∧ Action.parsed (some false) ∈ c.log ∧
      ∃ before t data after, es = before ++ .complete t 0 (.read data) :: after ∧
        (received (completionsOf 0 (wholes before))).length < 9 ∧
        9 ≤ (received (completionsOf 0 (wholes before)) ++ data.bytes).length := by
  intro es
  have hend : (es.foldlM (ThreadedServer.step .oneThread .reference .off .plain) .new).any
      (·.allOutside) = true := by decide +kernel
  obtain ⟨s, hrun, hall⟩ := (Option.any_eq_true _ _).mp hend
  have h := threaded_run hrun
  have hi : 0 ∈ accepted (wholes es) := by
    simp [es, accepted, wholes, ThreadedEvent.whole, Event.accepted]
  have hanswers : AnswersAt (consume intOfText) .fresh (ascii "GET / HTPT/1.0") 9 false :=
    ⟨by decide, by decide +kernel, by decide +kernel⟩
  obtain ⟨hk, hsettles⟩ := (answersAt_iff_settles intOfText _ _ _).mp hanswers
  cases hc : s.base.connections[0]? with
  | none => exact absurd hi (h.absent 0 hc).1
  | some c =>
    obtain ⟨hparsed, hread, -⟩ := verdict_earliest hrun hc hi (h.free_of_allOutside hall 0)
      (show _ = ascii "GET / HTPT/1.0" by decide +kernel)
    exact ⟨s, c, hrun, hc, (hparsed false).mpr ⟨9, hk, hsettles⟩, hread false 9 hk hsettles⟩

end BoostAsioWebServer
