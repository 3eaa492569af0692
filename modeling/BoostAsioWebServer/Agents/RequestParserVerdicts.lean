/-
  File:      BoostAsioWebServer/Agents/RequestParserVerdicts.lean
  Subject:   WHERE THE PARSER'S VERDICTS FALL, and that a stream has one reading.

  * `Settles`: a text with which a verdict falls -- a request, or one that cannot become a request
    any more, and could before its last byte;
  * `answersAt_iff_settles`: the parser gives each verdict at the byte the grammar settles it;
  * `accepted_reading`: an accepted stream has one reading, and the parse holds its request.
-/
import BoostAsioWebServer.Agents.RequestParserAccepts

namespace BoostAsioWebServer

open ByteText Feed

section Verdicts

variable (lexicalCast : Bytes → Option Int32)

/-! ## 1. Where a verdict falls -/

/-- The text is a request. -/
def Whole (s : Bytes) : Prop := ∃ head body, SentenceOf (lengthNat lexicalCast) head body s

/-- The text is a front part of a request, and not the whole. -/
def Begins (s : Bytes) : Prop := ∃ rest, rest ≠ [] ∧ Whole lexicalCast (s ++ rest)

/-- The text with which a verdict falls: a request; or no front part of a request, where every
    shorter text was one. -/
def Settles : Bool → Bytes → Prop
  | true, s => Whole lexicalCast s
  | false, s => ¬ Completable lexicalCast s ∧ ∀ j < s.length, Begins lexicalCast (s.take j)

theorem feed_none_begins (s : Bytes) :
    (feed (consume lexicalCast) .fresh s).2 = none ↔ Begins lexicalCast s := by
  have h := feed_none_iff lexicalCast s
  constructor
  · intro hnone
    obtain ⟨rest, head, body, hne, hsentence⟩ := h.mp ⟨_, Prod.ext rfl hnone⟩
    exact ⟨rest, hne, head, body, hsentence⟩
  · rintro ⟨rest, hne, head, body, hsentence⟩
    obtain ⟨p, hp⟩ := h.mpr ⟨rest, head, body, hne, hsentence⟩
    rw [hp]

/-- What can become a request is one, or begins one. -/
theorem Completable.cases {s : Bytes} (h : Completable lexicalCast s) :
    Whole lexicalCast s ∨ Begins lexicalCast s := by
  obtain ⟨rest, head, body, hsentence⟩ := h
  by_cases hnil : rest = []
  · rw [hnil, List.append_nil] at hsentence
    exact Or.inl ⟨head, body, hsentence⟩
  · exact Or.inr ⟨rest, hnil, head, body, hsentence⟩

theorem Begins.completable {s : Bytes} (h : Begins lexicalCast s) : Completable lexicalCast s := by
  obtain ⟨rest, -, head, body, hsentence⟩ := h
  exact ⟨rest, head, body, hsentence⟩

/-- A request is answered `true` at its end. -/
theorem Whole.answersAt {s : Bytes} {k : Nat} (hk : k ≤ s.length)
    (h : Whole lexicalCast (s.take k)) : AnswersAt (consume lexicalCast) .fresh s k true := by
  obtain ⟨head, body, hsentence⟩ := h
  exact (answersAt_sentence lexicalCast hk hsentence).1

/-- A dead end is answered `false` at its last byte. -/
theorem answersAt_deadEnd {s : Bytes} {k : Nat} (hk : k ≤ s.length)
    (hdead : ¬ Completable lexicalCast (s.take k))
    (hbegins : ∀ j < k, Begins lexicalCast (s.take j)) :
    AnswersAt (consume lexicalCast) .fresh s k false := by
  have hsilent : ∀ j < k, (feed (consume lexicalCast) .fresh (s.take j)).2 = none := fun j hj =>
    (feed_none_begins lexicalCast _).mpr (hbegins j hj)
  refine ⟨hk, ?_, hsilent⟩
  cases hverdict : (feed (consume lexicalCast) .fresh (s.take k)).2 with
  | none => exact absurd ((feed_none_begins lexicalCast _).mp hverdict).completable hdead
  | some verdict =>
    cases verdict with
    | false => rfl
    | true =>
      obtain ⟨⟨head, body, hsentence⟩, -⟩ :=
        sentence_of_answersAt lexicalCast ⟨hk, hverdict, hsilent⟩
      refine absurd ⟨[], head, body, ?_⟩ hdead
      rwa [List.append_nil]

/-- **Each verdict falls at the byte at which the grammar settles it**: acceptance at the end of
    the first request, refusal at the first byte from which on no request can come any more. -/
theorem answersAt_iff_settles (s : Bytes) (k : Nat) (verdict : Bool) :
    AnswersAt (consume lexicalCast) .fresh s k verdict ↔
      k ≤ s.length ∧ Settles lexicalCast verdict (s.take k) := by
  cases verdict with
  | true =>
    constructor
    · intro h
      exact ⟨h.1, (sentence_of_answersAt lexicalCast h).1⟩
    · rintro ⟨hk, hwhole⟩
      exact Whole.answersAt lexicalCast hk hwhole
  | false =>
    constructor
    · intro h
      obtain ⟨hk, hfalse, hsilent⟩ := h
      refine ⟨hk, fun hcomplete => ?_, fun j hj => ?_⟩
      · rcases hcomplete.cases with hwhole | hbegins
        · have htrue := Whole.answersAt lexicalCast hk hwhole
          cases (answersAt_unique htrue ⟨hk, hfalse, hsilent⟩).2
        · rw [(feed_none_begins lexicalCast _).mpr hbegins] at hfalse
          cases hfalse
      · have hjk : j < k := lt_of_lt_of_le hj (List.length_take_le k s)
        rw [List.take_take, Nat.min_eq_left hjk.le]
        exact (feed_none_begins lexicalCast _).mp (hsilent j hjk)
    · rintro ⟨hk, hdead, hbegins⟩
      refine answersAt_deadEnd lexicalCast hk hdead fun j hj => ?_
      have h := hbegins j (by rwa [List.length_take, Nat.min_eq_left hk])
      rwa [List.take_take, Nat.min_eq_left hj.le] at h

/-- A stream has a verdict exactly where one of its front parts settles it. -/
theorem feed_some_settles (s : Bytes) (verdict : Bool) :
    (feed (consume lexicalCast) .fresh s).2 = some verdict ↔
      ∃ k ≤ s.length, Settles lexicalCast verdict (s.take k) := by
  rw [feed_some_iff]
  exact exists_congr fun k => answersAt_iff_settles lexicalCast s k verdict

/-! ## 2. One reading -/

/-- Two numbers around a point are told from each other. -/
theorem numbers_unique {M M' N N' : Bytes} (hM : ∀ b ∈ M, IsDigit b) (hM' : ∀ b ∈ M', IsDigit b)
    (h : M ++ ascii "." ++ N = M' ++ ascii "." ++ N') : M = M' ∧ N = N' := by
  have hpoint : ¬ IsDigit (chr '.') := by decide
  have hfront : ∀ {D : Bytes}, (∀ b ∈ D, IsDigit b) → ∀ rest : Bytes,
      textBefore (chr '.') (D ++ ascii "." ++ rest) = D := by
    intro D hD rest
    rw [List.append_assoc]
    exact textBefore_append (fun hmem => hpoint (hD _ hmem)) rest
  have hmajor : M = M' := by
    rw [← hfront hM N, ← hfront hM' N', h]
  subst hmajor
  exact ⟨rfl, List.append_cancel_left h⟩

/-- A request line is told by its method, its target and its text. -/
theorem RequestLine.eq_of_text {l l' : RequestLine} (hmethod : l.method = l'.method)
    (huri : l.uri = l'.uri) (htext : l.text = l'.text) : l = l' := by
  obtain ⟨m, u, M, N, hm, hmt, hu, hM, hMd, hN, hNd⟩ := l
  obtain ⟨m', u', M', N', hm', hmt', hu', hM', hMd', hN', hNd'⟩ := l'
  cases hmethod
  cases huri
  have hnumbers : M ++ ascii "." ++ N = M' ++ ascii "." ++ N' := by
    have htext' : m ++ ascii " " ++ u ++ ascii " HTTP/" ++ (M ++ ascii "." ++ N) ++ crlf =
        m ++ ascii " " ++ u ++ ascii " HTTP/" ++ (M' ++ ascii "." ++ N') ++ crlf := by
      simpa only [RequestLine.text, List.append_assoc] using htext
    exact List.append_cancel_left (List.append_cancel_right htext')
  obtain ⟨hmajor, hminor⟩ := numbers_unique hMd hMd' hnumbers
  subst hmajor
  subst hminor
  rfl

theorem HeaderLine.pair_injective : Function.Injective HeaderLine.pair := by
  rintro ⟨n, v, hn, hnt, hv⟩ ⟨n', v', hn', hnt', hv'⟩ h
  cases h
  rfl

/-- A head and a body are told by their text and by the request they denote. -/
theorem reading_of_request {head head' : RequestHead} {body body' : Bytes}
    (hrequest : head.request body = head'.request body')
    (htext : head.text ++ body = head'.text ++ body') : head = head' ∧ body = body' := by
  have hbody : body = body' := congrArg Request.content hrequest
  have hheaders : head.headers = head'.headers :=
    HeaderLine.pair_injective.list_map (congrArg Request.headers hrequest)
  rw [hbody] at htext
  have hhead := List.append_cancel_right htext
  rw [RequestHead.text, RequestHead.text, hheaders] at hhead
  have hline : head.line = head'.line := RequestLine.eq_of_text
    (congrArg Request.method hrequest) (congrArg Request.uri hrequest)
    (List.append_cancel_right (List.append_cancel_right hhead))
  obtain ⟨line, headers⟩ := head
  obtain ⟨line', headers'⟩ := head'
  cases hline
  cases hheaders
  exact ⟨rfl, hbody⟩

/-- A request that a stream starts with, as a head and a body. -/
def Reading (s : Bytes) (r : RequestHead × Bytes) : Prop :=
  SentenceOf (lengthNat lexicalCast) r.1 r.2 (r.1.text ++ r.2) ∧ r.1.text ++ r.2 <+: s

/-- The parser accepts at the end of a reading, whose request the parse then holds. -/
theorem Reading.answersAt {s : Bytes} {r : RequestHead × Bytes} (h : Reading lexicalCast s r) :
    s.take (r.1.text ++ r.2).length = r.1.text ++ r.2 ∧
      AnswersAt (consume lexicalCast) .fresh s (r.1.text ++ r.2).length true ∧
      (feed (consume lexicalCast) .fresh s).1.request = r.1.request r.2 := by
  obtain ⟨hsentence, hprefix⟩ := h
  have htake := (List.prefix_iff_eq_take.mp hprefix).symm
  have hanswer := answersAt_sentence lexicalCast hprefix.length_le (htake.symm ▸ hsentence)
  obtain ⟨hanswer, hrequest⟩ := hanswer
  refine ⟨htake, hanswer, ?_⟩
  rw [← hrequest, feed_answered hanswer]

/-- **A stream has one reading**: what follows a request cannot make another one of it. -/
theorem Reading.unique {s : Bytes} {r r' : RequestHead × Bytes} (h : Reading lexicalCast s r)
    (h' : Reading lexicalCast s r') : r = r' := by
  obtain ⟨htake, hanswer, hrequest⟩ := h.answersAt
  obtain ⟨htake', hanswer', hrequest'⟩ := h'.answersAt
  -- the one verdict falls at the end of both
  have hlength := (answersAt_unique hanswer hanswer').1
  have htext : r.1.text ++ r.2 = r'.1.text ++ r'.2 := by rw [← htake, ← htake', hlength]
  obtain ⟨hhead, hbody⟩ := reading_of_request (hrequest.symm.trans hrequest') htext
  exact Prod.ext hhead hbody

/-- **The parser accepts a stream with a request exactly where the stream has one reading**, and
    the reading denotes the request: every reader of the grammar ends the request at the same byte
    and finds the same method, target, version text, header lines and body in it. -/
theorem accepted_reading (s : Bytes) (request : Request) :
    (∃ p, feed (consume lexicalCast) .fresh s = (p, some true) ∧ p.request = request) ↔
      ∃ r, Reading lexicalCast s r ∧ (∀ r', Reading lexicalCast s r' → r' = r) ∧
        r.1.request r.2 = request := by
  constructor
  · rintro ⟨p, hp, rfl⟩
    obtain ⟨head, body, rest, hs, hsentence, hrequest⟩ := sentence_of_feed hp
    have h : Reading lexicalCast s (head, body) := ⟨hsentence, rest, hs.symm⟩
    exact ⟨(head, body), h, fun r' h' => h'.unique lexicalCast h, hrequest.symm⟩
  · rintro ⟨r, h, -, rfl⟩
    obtain ⟨-, hanswer, hrequest⟩ := h.answersAt
    exact ⟨_, Prod.ext rfl (feed_some_iff.mpr ⟨_, hanswer⟩), hrequest⟩

end Verdicts

end BoostAsioWebServer
