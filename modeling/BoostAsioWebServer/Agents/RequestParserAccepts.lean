/-
  File:      BoostAsioWebServer/Agents/RequestParserAccepts.lean
  Subject:   THE PARSER ACCEPTS EXACTLY ITS GRAMMAR.

  Against `Reads` (what has been read, RequestParserReads.lean) this file runs the parser over a
  sentence:

  * `feed_line`, `feed_headers`, `feed_characters`: the parse behind a request line, behind the
    header lines, behind whole characters of the body;
  * `answersAt_sentence`: a sentence is accepted at its last byte, with the request it denotes;
  * `Reads.completable`: no live state is a dead end;
  * `feed_true_iff`, `feed_none_iff`: the three outcomes on a stream, in terms of the grammar;
  * `consume_accepts_sentences`: the verdict `true` falls exactly at the end of a shortest
    sentence.
-/
import BoostAsioWebServer.Agents.RequestParserReads

namespace BoostAsioWebServer

open ByteText Feed

section Accepts

variable (lexicalCast : Bytes → Option Int32)

/-! ## 1. Running over a sentence -/

theorem feed_method {m : Bytes} (hm : TokenText m) :
    feed (consume lexicalCast) .fresh m = (⟨⟨.method, ([], []), 0, 0⟩, { method := m }⟩, none) := by
  obtain ⟨hne, htok⟩ := hm
  cases m with
  | nil => exact absurd rfl hne
  | cons a as =>
    have ha := (token_test a).mpr (htok a List.mem_cons_self)
    have hfirst : consume lexicalCast .fresh a =
        (⟨⟨.method, ([], []), 0, 0⟩, { method := [a] }⟩, none) := by
      simp only [consume, Parse.fresh, RequestParserAgent.fresh, ha, Bool.false_eq_true, if_false]
      rfl
    have hloop := feed_loop (consume lexicalCast) IsToken
      (fun acc => ⟨⟨.method, ([], []), 0, 0⟩, { method := acc }⟩) (fun acc c hc => by
        have ht := (token_test c).mpr hc
        have hsp : c ≠ chr ' ' := fun e => absurd (e ▸ hc) (by decide)
        simp only [consume, hsp, ht, Bool.false_eq_true, if_false]) [a]
      (fun b hb => htok b (List.mem_cons_of_mem _ hb))
    rw [feed_cons_none hfirst]
    exact hloop

theorem feed_uri {m u : Bytes} (hu : ∀ b ∈ u, IsUriByte b) :
    feed (consume lexicalCast) ⟨⟨.uri, ([], []), 0, 0⟩, { method := m }⟩ u =
      (⟨⟨.uri, ([], []), 0, 0⟩, { method := m, uri := u }⟩, none) :=
  feed_loop (consume lexicalCast) IsUriByte
    (fun acc => ⟨⟨.uri, ([], []), 0, 0⟩, { method := m, uri := acc }⟩) (fun acc c hc => by
      have ht := isCtl_refused hc.1
      simp only [consume, hc.2, ht, Bool.false_eq_true, if_false]) [] hu

/-- The parse of a version number, major or minor: its first digit leaves the start state, the
    others stay. -/
theorem feed_number {start : Parse} (f : Bytes → Parse) {t : Bytes} (ht : NumberText t)
    (hstart : ∀ c, IsDigit c → consume lexicalCast start c = (f [c], none))
    (hloop : ∀ acc c, IsDigit c → consume lexicalCast (f acc) c = (f (acc ++ [c]), none)) :
    feed (consume lexicalCast) start t = (f t, none) := by
  obtain ⟨hne, hdig⟩ := ht
  cases t with
  | nil => exact absurd rfl hne
  | cons a as =>
    rw [feed_cons_none (hstart a (hdig a List.mem_cons_self))]
    exact feed_loop (consume lexicalCast) IsDigit f hloop [a]
      fun b hb => hdig b (List.mem_cons_of_mem _ hb)

theorem feed_major {m u M : Bytes} (hM : NumberText M) :
    feed (consume lexicalCast) ⟨⟨.httpVersionMajorStart, ([], []), 0, 0⟩,
        { method := m, uri := u }⟩ M =
      (⟨⟨.httpVersionMajor, ([], []), 0, 0⟩,
        { method := m, uri := u, httpVersionMajor := .ofNat (decimalValue M) }⟩, none) := by
  refine feed_number lexicalCast (fun acc => ⟨⟨.httpVersionMajor, ([], []), 0, 0⟩,
    { method := m, uri := u, httpVersionMajor := .ofNat (decimalValue acc) }⟩) hM ?_ ?_
  · intro c hc
    have ht := (isDigit_test c).mpr hc
    simp only [consume, ht, if_true, versionNumber_singleton hc]
  · intro acc c hc
    have ht := (isDigit_test c).mpr hc
    have hdot : c ≠ chr '.' := fun e => absurd (e ▸ hc) (by decide)
    have hv := versionNumber_snoc acc hc
    simp only [consume, hdot, ht, if_false, if_true, hv]

theorem feed_minor {m u N : Bytes} {M : UInt32} (hN : NumberText N) :
    feed (consume lexicalCast) ⟨⟨.httpVersionMinorStart, ([], []), 0, 0⟩,
        { method := m, uri := u, httpVersionMajor := M }⟩ N =
      (⟨⟨.httpVersionMinor, ([], []), 0, 0⟩,
        { method := m, uri := u, httpVersionMajor := M,
          httpVersionMinor := .ofNat (decimalValue N) }⟩, none) := by
  refine feed_number lexicalCast (fun acc => ⟨⟨.httpVersionMinor, ([], []), 0, 0⟩,
    { method := m, uri := u, httpVersionMajor := M,
      httpVersionMinor := .ofNat (decimalValue acc) }⟩) hN ?_ ?_
  · intro c hc
    have ht := (isDigit_test c).mpr hc
    simp only [consume, ht, if_true, versionNumber_singleton hc]
  · intro acc c hc
    have ht := (isDigit_test c).mpr hc
    have hcr : c ≠ CR := fun e => absurd (e ▸ hc) (by decide)
    have hv := versionNumber_snoc acc hc
    simp only [consume, hcr, ht, if_false, if_true, hv]

/-- **A request line is read.** -/
theorem feed_line (l : RequestLine) :
    feed (consume lexicalCast) .fresh l.text =
      (⟨⟨.headerLineStart, ([], []), 0, 0⟩, l.request [] []⟩, none) := by
  have h1 := feed_method lexicalCast ⟨l.method_ne, l.method_token⟩
  have h2 : feed (consume lexicalCast) .fresh (l.method ++ ascii " ") = _ :=
    feed_append_none h1 (ascii " ")
  have h3 := (feed_append_none h2 l.uri).trans (feed_uri lexicalCast l.uri_byte)
  have h4 : feed (consume lexicalCast) .fresh
      (l.method ++ ascii " " ++ l.uri ++ ascii " HTTP/") = _ := feed_append_none h3 (ascii " HTTP/")
  have h5 := (feed_append_none h4 l.major).trans (feed_major lexicalCast ⟨l.major_ne, l.major_digit⟩)
  have h6 := feed_append_none h5 (ascii ".")
  have h7 := (feed_append_none h6 l.minor).trans (feed_minor lexicalCast ⟨l.minor_ne, l.minor_digit⟩)
  exact feed_append_none h7 crlf

/-- A header name is read. -/
theorem feed_name {n : Bytes} (hn : TokenText n) (len : UInt32) (req : Request) :
    feed (consume lexicalCast) ⟨⟨.headerLineStart, ([], []), len, 0⟩, req⟩ n =
      (⟨⟨.headerName, (n, []), len, 0⟩, req⟩, none) := by
  obtain ⟨hne, htok⟩ := hn
  cases n with
  | nil => exact absurd rfl hne
  | cons a as =>
    have hatok := htok a List.mem_cons_self
    have ha := (token_test a).mpr hatok
    have hcr : a ≠ CR := fun e => absurd (e ▸ hatok) (by decide)
    have hfirst : consume lexicalCast ⟨⟨.headerLineStart, ([], []), len, 0⟩, req⟩ a =
        (⟨⟨.headerName, ([a], []), len, 0⟩, req⟩, none) := by
      simp only [consume, hcr, ha, Bool.false_eq_true, if_false]
    rw [feed_cons_none hfirst]
    refine feed_loop (consume lexicalCast) IsToken
      (fun acc => ⟨⟨.headerName, (acc, []), len, 0⟩, req⟩) ?_ [a]
      fun b hb => htok b (List.mem_cons_of_mem _ hb)
    intro acc c hc
    have ht := (token_test c).mpr hc
    have hcolon : c ≠ chr ':' := fun e => absurd (e ▸ hc) (by decide)
    simp only [consume, hcolon, ht, Bool.false_eq_true, if_false]

/-- A header value is read. -/
theorem feed_value {v : Bytes} (hv : ∀ b ∈ v, ¬ IsControl b) (n : Bytes) (len : UInt32)
    (req : Request) :
    feed (consume lexicalCast) ⟨⟨.headerValue, (n, []), len, 0⟩, req⟩ v =
      (⟨⟨.headerValue, (n, v), len, 0⟩, req⟩, none) := by
  refine feed_loop (consume lexicalCast) (fun b => ¬ IsControl b)
    (fun acc => ⟨⟨.headerValue, (n, acc), len, 0⟩, req⟩) ?_ [] hv
  intro acc c hc
  have ht := isCtl_refused hc
  have hcr : c ≠ CR := fun e => absurd (show IsControl CR by decide) (e ▸ hc)
  simp only [consume, hcr, ht, Bool.false_eq_true, if_false]

/-- **A header line is read**, and its value declares the length where its name says so. -/
theorem feed_header (l : RequestLine) (hs : List HeaderLine) (h : HeaderLine) :
    feed (consume lexicalCast) ⟨⟨.headerLineStart, ([], []), fieldOf lexicalCast hs, 0⟩,
        l.request (hs.map HeaderLine.pair) []⟩ h.text =
      (⟨⟨.headerLineStart, ([], []), fieldOf lexicalCast (hs ++ [h]), 0⟩,
        l.request ((hs ++ [h]).map HeaderLine.pair) []⟩, none) := by
  have h1 := feed_name lexicalCast ⟨h.name_ne, h.name_token⟩ (fieldOf lexicalCast hs)
    (l.request (hs.map HeaderLine.pair) [])
  have h2 := feed_append_none h1 (ascii ": ")
  have h3 := feed_value lexicalCast h.value_byte h.name (fieldOf lexicalCast hs)
    (l.request (hs.map HeaderLine.pair) [])
  have h4 := (feed_append_none h2 h.value).trans h3
  have h5 := feed_append_none h4 crlf
  have hfield := lengthField_snoc lexicalCast (hs.map HeaderLine.pair) h.pair
  have hmap : (hs ++ [h]).map HeaderLine.pair = hs.map HeaderLine.pair ++ [h.pair] := by simp
  rw [HeaderLine.text, h5]
  show _ = (Parse.mk ⟨.headerLineStart, ([], []),
    lengthField lexicalCast ((hs ++ [h]).map HeaderLine.pair), 0⟩ _, none)
  rw [hmap, ← hfield]
  rfl

theorem feed_headers (l : RequestLine) (hs : List HeaderLine) :
    feed (consume lexicalCast) .fresh (linesText l hs) =
      (⟨⟨.headerLineStart, ([], []), fieldOf lexicalCast hs, 0⟩,
        l.request (hs.map HeaderLine.pair) []⟩, none) := by
  induction hs using List.reverseRecOn with
  | nil =>
    rw [linesText, List.flatMap_nil, List.append_nil]
    exact feed_line lexicalCast l
  | append_singleton hs h ih =>
    rw [linesText_snoc, feed_append_none ih]
    exact feed_header lexicalCast l hs h

/-- A lead byte and some of the continuation bytes it announces are stored. -/
theorem feed_lead {lead : UInt8} {conts : Bytes} {size : Nat} (len : UInt32) (size₀ : Nat)
    (req : Request) (hlead : Announces lead size) (hconts : ∀ b ∈ conts, IsContinuation b)
    (hsize : conts.length + 1 < size) :
    feed (consume lexicalCast) ⟨⟨.expectingContentChar1, ([], []), len, size₀⟩, req⟩
        (lead :: conts) =
      (⟨⟨continuationState conts.length, ([], []), len, size⟩,
        { req with content := req.content ++ lead :: conts }⟩, none) := by
  induction conts using List.reverseRecOn with
  | nil =>
    obtain ⟨hlen, -⟩ := (announces_iff lead size).mp hlead
    have h0 : getUTF8Length lead > 0 := by omega
    have h1 : getUTF8Length lead ≠ 1 := by
      simp only [List.length_nil] at hsize
      omega
    rw [feed_singleton]
    simp only [consume, h0, h1, if_true, if_false]
    rw [hlen]
    rfl
  | append_singleton xs c ih =>
    have hlen : (xs ++ [c]).length = xs.length + 1 := by simp
    have hxs := ih (fun b hb => hconts b (List.mem_append_left _ hb)) (by omega)
    have hc := (isValidUTF8ContinuationByte_test c).mpr
      (hconts c (List.mem_append_right _ List.mem_cons_self))
    have hk : xs.length + 1 < size := by omega
    obtain ⟨q, -, hstep⟩ := consume_continuation lexicalCast len
      { req with content := req.content ++ lead :: xs } hk hlead.le_four hc
    rw [if_neg (by omega)] at hstep
    rw [← List.cons_append, feed_append_none hxs, feed_singleton, hstep, hlen]
    simp

/-- **A character of the body**: its last byte ends the body at or past the declared length, and
    before it the parser is ready for the next character. -/
theorem feed_character {w : Bytes} (hw : Utf8Shaped w) (len : UInt32) (size : Nat) (req : Request) :
    ∃ init c t q size', w = init ++ [c] ∧
      feed (consume lexicalCast) ⟨⟨.expectingContentChar1, ([], []), len, size⟩, req⟩ init =
        (t, none) ∧
      q.request = { req with content := req.content ++ w } ∧
      consume lexicalCast t c =
        if (req.content ++ w).length ≥ len.toNat then (q, some true)
        else (⟨⟨.expectingContentChar1, ([], []), len, size'⟩,
          { req with content := req.content ++ w }⟩, none) := by
  obtain ⟨lead, conts, rfl, hlead, hconts⟩ := hw
  rcases List.eq_nil_or_concat conts with rfl | ⟨xs, c, rfl⟩
  · obtain ⟨hlen, -⟩ := (announces_iff lead _).mp hlead
    rw [List.length_nil, Nat.zero_add] at hlen
    refine ⟨[], lead, _, ⟨⟨.expectingContentChar1, ([], []), len, 1⟩,
      { req with content := req.content ++ [lead] }⟩, 1, rfl, rfl, rfl, ?_⟩
    simp only [consume, hlen, Nat.one_pos, if_true]
  · have hlen : (xs ++ [c]).length = xs.length + 1 := by simp
    rw [List.concat_eq_append] at hconts hlead ⊢
    rw [hlen] at hlead
    have hxs := feed_lead lexicalCast len size req hlead
      (fun b hb => hconts b (List.mem_append_left _ hb)) (by omega)
    have hc := (isValidUTF8ContinuationByte_test c).mpr
      (hconts c (List.mem_append_right _ List.mem_cons_self))
    have hk : xs.length + 1 < xs.length + 1 + 1 := by omega
    obtain ⟨q, hq, hstep⟩ := consume_continuation lexicalCast len
      { req with content := req.content ++ lead :: xs } hk hlead.le_four hc
    have happ : req.content ++ lead :: xs ++ [c] = req.content ++ lead :: (xs ++ [c]) := by simp
    rw [if_pos rfl] at hstep
    simp only [happ] at hq hstep
    exact ⟨lead :: xs, c, _, q, _, rfl, hxs, hq, hstep⟩

/-- Whole characters short of the declared length are stored. -/
theorem feed_characters {chars : List Bytes} (hchars : ∀ w ∈ chars, Utf8Shaped w) {len : UInt32}
    (size : Nat) (req : Request) (hlt : (req.content ++ chars.flatten).length < len.toNat) :
    ∃ size', feed (consume lexicalCast) ⟨⟨.expectingContentChar1, ([], []), len, size⟩, req⟩
        chars.flatten =
      (⟨⟨.expectingContentChar1, ([], []), len, size'⟩,
        { req with content := req.content ++ chars.flatten }⟩, none) := by
  induction chars generalizing size req with
  | nil => exact ⟨size, by simp⟩
  | cons w ws ih =>
    obtain ⟨init, c, t, q, size', hw, hinit, -, hstep⟩ :=
      feed_character lexicalCast (hchars w List.mem_cons_self) len size req
    rw [List.flatten_cons, ← List.append_assoc] at hlt
    have hshort : ¬ (req.content ++ w).length ≥ len.toNat := by
      rw [List.length_append] at hlt
      omega
    rw [if_neg hshort] at hstep
    have hone : feed (consume lexicalCast) ⟨⟨.expectingContentChar1, ([], []), len, size⟩, req⟩ w =
        (⟨⟨.expectingContentChar1, ([], []), len, size'⟩,
          { req with content := req.content ++ w }⟩, none) := by
      conv_lhs => rw [hw]
      rw [feed_append_none hinit, feed_singleton, hstep]
    obtain ⟨size'', hrest⟩ := ih (fun x hx => hchars x (List.mem_cons_of_mem _ hx)) size'
      { req with content := req.content ++ w } hlt
    refine ⟨size'', ?_⟩
    rw [List.flatten_cons, feed_append_none hone, hrest]
    simp

/-- The parse in front of the line feed of the blank line. -/
theorem feed_blankLine (head : RequestHead) :
    feed (consume lexicalCast) .fresh (linesText head.line head.headers ++ [CR]) =
      (⟨⟨.expectingNewline3, ([], []), fieldOf lexicalCast head.headers, 0⟩, head.request []⟩,
        none) :=
  feed_append_none (feed_headers lexicalCast head.line head.headers) [CR]

/-- **A sentence is accepted at its last byte**, with the request it denotes. -/
theorem feed_sentence {head : RequestHead} {body s : Bytes}
    (h : SentenceOf (lengthNat lexicalCast) head body s) :
    ∃ ys c t p, s = ys ++ [c] ∧ feed (consume lexicalCast) .fresh ys = (t, none) ∧
      consume lexicalCast t c = (p, some true) ∧ p.request = head.request body := by
  obtain ⟨rfl, hbody⟩ := h
  have hcr := feed_blankLine lexicalCast head
  by_cases h0 : lengthNat lexicalCast (head.headers.map HeaderLine.pair) = 0
  · rw [Body, if_pos h0] at hbody
    subst hbody
    have hL : ¬ fieldOf lexicalCast head.headers > 0 := fun e =>
      (fieldOf_pos_iff lexicalCast head.headers).mp e h0
    exact ⟨_, LF, _, _, by rw [List.append_nil, head.text_split], hcr,
      consume_blankLine_empty hL 0 _, rfl⟩
  · rw [Body, if_neg h0] at hbody
    obtain ⟨chars, last, hchars, hlast, rfl, hlt, hge⟩ := hbody
    have hL : fieldOf lexicalCast head.headers > 0 :=
      (fieldOf_pos_iff lexicalCast head.headers).mpr h0
    have hhead : feed (consume lexicalCast) .fresh head.text =
        (⟨⟨.expectingContentChar1, ([], []), fieldOf lexicalCast head.headers, 0⟩,
          head.request []⟩, none) := by
      rw [head.text_split, feed_append_none hcr, feed_singleton, consume_blankLine_body hL]
    obtain ⟨size, hch⟩ := feed_characters lexicalCast hchars 0 (head.request []) hlt
    have hch' := (feed_append_none hhead chars.flatten).trans hch
    obtain ⟨init, c, t, q, _, hw, hinit, hq, hstep⟩ := feed_character lexicalCast
      hlast (fieldOf lexicalCast head.headers) size (head.request chars.flatten)
    have hge' : ((head.request chars.flatten).content ++ last).length ≥
        (fieldOf lexicalCast head.headers).toNat := hge
    rw [if_pos hge'] at hstep
    refine ⟨head.text ++ chars.flatten ++ init, c, t, q, ?_, ?_, hstep, hq⟩
    · conv_lhs => rw [hw]
      simp
    · exact (feed_append_none hch' init).trans hinit

/-! ## 2. No live state is a dead end -/

/-- Some continuation of the text completes a sentence. -/
def Completable (s : Bytes) : Prop :=
  ∃ rest head body, SentenceOf (lengthNat lexicalCast) head body (s ++ rest)

theorem utf8Shaped_ascii : Utf8Shaped [chr 'A'] :=
  ⟨chr 'A', [], rfl, .one (by decide), by simp⟩

/-- A character that has begun can be finished. -/
theorem exists_character {lead : UInt8} {conts : Bytes} {size : Nat} (hlead : Announces lead size)
    (hconts : ∀ b ∈ conts, IsContinuation b) (hsize : conts.length + 1 < size) :
    ∃ fill, Utf8Shaped (lead :: (conts ++ fill)) := by
  let fill := List.replicate (size - conts.length - 1) (0x80 : UInt8)
  have hlen : (conts ++ fill).length + 1 = size := by
    rw [List.length_append, List.length_replicate]
    omega
  refine ⟨fill, lead, conts ++ fill, rfl, by rwa [hlen], ?_⟩
  intro b hb
  rcases List.mem_append.mp hb with hb | hb
  · exact hconts b hb
  · rw [List.eq_of_mem_replicate hb]
    exact ⟨by decide, by decide⟩

/-- Characters short of the declared length extend to a body. -/
theorem exists_body_append {L : Nat} {chars : List Bytes} (hchars : ∀ w ∈ chars, Utf8Shaped w)
    (hlt : chars.flatten.length < L) : ∃ rest, Body L (chars.flatten ++ rest) := by
  let fill := List.replicate (L - chars.flatten.length - 1) [chr 'A']
  have hfill : fill.flatten.length = L - chars.flatten.length - 1 := by
    simp [fill, List.length_flatten]
  refine ⟨fill.flatten ++ [chr 'A'], ?_⟩
  rw [Body, if_neg (by omega)]
  refine ⟨chars ++ fill, [chr 'A'], ?_, utf8Shaped_ascii, by simp, ?_, ?_⟩
  · intro w hw
    rcases List.mem_append.mp hw with hw | hw
    · exact hchars w hw
    · exact List.eq_of_mem_replicate hw ▸ utf8Shaped_ascii
  · rw [List.flatten_append, List.length_append, hfill]
    omega
  · rw [List.length_append, List.length_append, hfill, List.length_singleton]
    omega

theorem exists_body (L : Nat) : ∃ body, Body L body := by
  by_cases hL : L = 0
  · exact ⟨[], by simp [Body, hL]⟩
  · have hnil : ∀ w ∈ ([] : List Bytes), Utf8Shaped w := fun _ hw => absurd hw List.not_mem_nil
    obtain ⟨rest, hrest⟩ := exists_body_append (L := L) hnil (Nat.pos_of_ne_zero hL)
    exact ⟨_, hrest⟩

/-- What extends to a list of whole lines is completable: a blank line and a body follow. -/
theorem completable_of_lines {s : Bytes} (l : RequestLine) (hs : List HeaderLine) (rest : Bytes)
    (h : s ++ rest = linesText l hs) : Completable lexicalCast s := by
  let head : RequestHead := ⟨l, hs⟩
  obtain ⟨body, hbody⟩ := exists_body (lengthNat lexicalCast (head.headers.map HeaderLine.pair))
  refine ⟨rest ++ crlf ++ body, head, body, ?_, hbody⟩
  rw [RequestHead.text_eq, ← h]
  simp

/-- What extends to a request line is completable. -/
theorem completable_of_line {s rest m u M N : Bytes} (hm : TokenText m) (hu : ∀ b ∈ u, IsUriByte b)
    (hM : NumberText M) (hN : NumberText N) (h : s ++ rest = lineText m u M N) :
    Completable lexicalCast s := by
  let l : RequestLine := ⟨m, u, M, N, hm.1, hm.2, hu, hM.1, hM.2, hN.1, hN.2⟩
  refine completable_of_lines lexicalCast l [] (rest ++ crlf) ?_
  rw [← List.append_assoc, h]
  simp [linesText, RequestLine.text_eq, l]

theorem tokenText_ascii : TokenText [chr 'A'] := tokenText_singleton (by decide)

theorem numberText_ascii : NumberText [chr '0'] := numberText_singleton (by decide)

/-- The literal before the version number, cut where a state of it stands. -/
theorem versionLiterals_prefix {state : ParsingState} {lit : Bytes}
    (h : (state, lit) ∈ versionLiterals) : ∃ tail, ascii " HTTP/" = lit ++ tail := by
  simp only [versionLiterals, List.mem_cons, Prod.mk.injEq, List.not_mem_nil, or_false] at h
  rcases h with ⟨-, rfl⟩ | ⟨-, rfl⟩ | ⟨-, rfl⟩ | ⟨-, rfl⟩ | ⟨-, rfl⟩ | ⟨-, rfl⟩
  · exact ⟨ascii "HTTP/", rfl⟩
  · exact ⟨ascii "TTP/", rfl⟩
  · exact ⟨ascii "TP/", rfl⟩
  · exact ⟨ascii "P/", rfl⟩
  · exact ⟨ascii "/", rfl⟩
  · exact ⟨[], rfl⟩

/-- **No live state is a dead end**: whatever a fresh agent has read without a verdict is the
    beginning of a sentence. -/
theorem Reads.completable {s : Bytes} {p : Parse} (h : Reads lexicalCast s p) :
    Completable lexicalCast s := by
  have h0 := numberText_ascii
  have hnil : ∀ b ∈ ([] : Bytes), IsUriByte b := fun _ hb => absurd hb List.not_mem_nil
  cases h with
  | methodStart => exact completable_of_line lexicalCast tokenText_ascii hnil h0 h0 (List.nil_append _)
  | method hm =>
    exact completable_of_line lexicalCast hm hnil h0 h0
      (by simp only [lineText, List.append_assoc]; rfl)
  | uri hm hu =>
    exact completable_of_line lexicalCast hm hu h0 h0
      (by simp only [lineText, List.append_assoc]; rfl)
  | literal hm hu hlit =>
    obtain ⟨tail, htail⟩ := versionLiterals_prefix hlit
    exact completable_of_line lexicalCast hm hu h0 h0
      (by simp only [lineText, htail, List.append_assoc]; rfl)
  | major hm hu hM =>
    exact completable_of_line lexicalCast hm hu hM h0
      (by simp only [lineText, List.append_assoc]; rfl)
  | minorStart hm hu hM => exact completable_of_line lexicalCast hm hu hM h0 (by rw [lineText])
  | minor hm hu hM hN => exact completable_of_line lexicalCast hm hu hM hN (List.append_nil _)
  | newline1 l =>
    refine completable_of_lines lexicalCast l [] [LF] ?_
    simp [linesText, RequestLine.text_eq, crlf]
  | headerLineStart l hs => exact completable_of_lines lexicalCast l hs [] (List.append_nil _)
  | headerName l hs hn =>
    let h : HeaderLine := ⟨_, [], hn.1, hn.2, by simp⟩
    refine completable_of_lines lexicalCast l (hs ++ [h]) (ascii ": " ++ crlf) ?_
    simp [linesText_snoc, HeaderLine.text, h]
  | space l hs hn =>
    let h : HeaderLine := ⟨_, [], hn.1, hn.2, by simp⟩
    refine completable_of_lines lexicalCast l (hs ++ [h]) (ascii " " ++ crlf) ?_
    simp [linesText_snoc, HeaderLine.text, h, ascii]
  | headerValue l hs hn hv =>
    let h : HeaderLine := ⟨_, _, hn.1, hn.2, hv⟩
    refine completable_of_lines lexicalCast l (hs ++ [h]) crlf ?_
    simp [linesText_snoc, HeaderLine.text, h]
  | newline2 l hs h =>
    refine completable_of_lines lexicalCast l (hs ++ [h]) [LF] ?_
    simp [linesText_snoc, HeaderLine.text, crlf]
  | newline3 l hs =>
    let head : RequestHead := ⟨l, hs⟩
    obtain ⟨body, hbody⟩ := exists_body (lengthNat lexicalCast (head.headers.map HeaderLine.pair))
    refine ⟨[LF] ++ body, head, body, ?_, hbody⟩
    simp [RequestHead.text_eq, head, crlf]
  | content head hchars hlt =>
    obtain ⟨rest, hrest⟩ := exists_body_append hchars hlt
    exact ⟨rest, head, _, by simp, hrest⟩
  | @continuation head chars lead conts size hchars hlt hlead hconts hsize =>
    -- the character is finished first, then the body
    obtain ⟨fill, hw⟩ := exists_character hlead hconts hsize
    by_cases hge : (fieldOf lexicalCast head.headers).toNat ≤
        (chars.flatten ++ lead :: (conts ++ fill)).length
    · refine ⟨fill, head, chars.flatten ++ lead :: (conts ++ fill), by simp, ?_⟩
      rw [Body, if_neg (Nat.ne_of_gt (Nat.zero_lt_of_lt hlt))]
      exact ⟨chars, _, hchars, hw, rfl, hlt, hge⟩
    · have hflat : (chars ++ [lead :: (conts ++ fill)]).flatten =
          chars.flatten ++ lead :: (conts ++ fill) := by simp
      obtain ⟨rest, hrest⟩ := exists_body_append (forall_mem_snoc hchars hw)
        (by rw [hflat]; exact not_le.mp hge)
      exact ⟨fill ++ rest, head, _, by simp, hrest⟩

/-! ## 3. The outcomes on a stream -/

/-- The stream starts with a sentence exactly where the verdict is `true`. -/
theorem feed_true_iff (s : Bytes) :
    (∃ p, feed (consume lexicalCast) .fresh s = (p, some true)) ↔
      ∃ head body rest, s = head.text ++ body ++ rest ∧
        SentenceOf (lengthNat lexicalCast) head body (head.text ++ body) := by
  constructor
  · rintro ⟨p, hp⟩
    obtain ⟨head, body, rest, hs, hsent, -⟩ := sentence_of_feed hp
    exact ⟨head, body, rest, hs, hsent⟩
  · rintro ⟨head, body, rest, rfl, hsent⟩
    obtain ⟨ys, c, t, p, hs, hys, hc, -⟩ := feed_sentence lexicalCast hsent
    have hall : feed (consume lexicalCast) .fresh (head.text ++ body) = (p, some true) := by
      rw [hs, feed_append_none hys, feed_singleton, hc]
    exact ⟨p, feed_append_some hall rest⟩

/-- **No verdict yet** is reached exactly on the proper prefixes of sentences. -/
theorem feed_none_iff (s : Bytes) :
    (∃ p, feed (consume lexicalCast) .fresh s = (p, none)) ↔
      ∃ rest head body, rest ≠ [] ∧ SentenceOf (lengthNat lexicalCast) head body (s ++ rest) := by
  constructor
  · rintro ⟨p, hp⟩
    obtain ⟨rest, head, body, hsent⟩ := (reads_of_feed hp).completable
    refine ⟨rest, head, body, ?_, hsent⟩
    intro hrest
    rw [hrest, List.append_nil] at hsent
    obtain ⟨ys, c, t, q, rfl, hys, hc, -⟩ := feed_sentence lexicalCast hsent
    rw [feed_append_none hys, feed_singleton, hc] at hp
    cases hp
  · rintro ⟨rest, head, body, hne, hsent⟩
    obtain ⟨ys, c, t, q, hs, hys, -, -⟩ := feed_sentence lexicalCast hsent
    obtain ⟨rest', a, rfl⟩ := List.eq_nil_or_concat rest |>.resolve_left hne
    rw [List.concat_eq_append, ← List.append_assoc] at hs
    obtain ⟨rfl, -⟩ := List.append_inj' hs rfl
    exact feed_prefix_none hys

/-- The verdict `true` falls at the end of a sentence, whose request the parse then holds. -/
theorem answersAt_sentence {head : RequestHead} {body s : Bytes} {k : Nat} (hk : k ≤ s.length)
    (h : SentenceOf (lengthNat lexicalCast) head body (s.take k)) :
    AnswersAt (consume lexicalCast) .fresh s k true ∧
      (feed (consume lexicalCast) .fresh (s.take k)).1.request = head.request body := by
  obtain ⟨ys, c, t, p, hs, hys, hc, hr⟩ := feed_sentence lexicalCast h
  have hlen : ys.length + 1 = k := by
    have := congrArg List.length hs
    rw [List.length_take, List.length_append, List.length_singleton] at this
    omega
  have hstream : ys ++ c :: s.drop k = s := by
    rw [List.append_cons, ← hs, List.take_append_drop]
  constructor
  · have hans := answersAt_of_step hys hc (s.drop k)
    rwa [hstream, hlen] at hans
  · rw [hs, feed_append_none hys, feed_singleton, hc, hr]

/-- A stream accepted at `k` is a sentence up to `k`, and no shorter prefix of it is one. -/
theorem sentence_of_answersAt {s : Bytes} {k : Nat}
    (h : AnswersAt (consume lexicalCast) .fresh s k true) :
    (∃ head body, SentenceOf (lengthNat lexicalCast) head body (s.take k)) ∧
      ∀ j < k, ¬ ∃ head body, SentenceOf (lengthNat lexicalCast) head body (s.take j) := by
  obtain ⟨hk, htrue, hsilent⟩ := h
  constructor
  · rcases hp : feed (consume lexicalCast) .fresh (s.take k) with ⟨p, o⟩
    rw [hp] at htrue
    cases htrue
    obtain ⟨head, body, rest, hs, hsent, -⟩ := sentence_of_feed hp
    -- the verdict falls at the end of the sentence, so nothing stands behind it
    have htake : (s.take k).take (head.text ++ body).length = head.text ++ body := by
      rw [hs]
      exact List.take_left
    have hle : (head.text ++ body).length ≤ k := by
      have hlen := congrArg List.length hs
      rw [List.length_take, @List.length_append _ _ rest] at hlen
      omega
    rw [List.take_take, Nat.min_eq_left hle] at htake
    obtain ⟨hans, -⟩ := answersAt_sentence lexicalCast (hle.trans hk) (htake ▸ hsent)
    obtain ⟨heq, -⟩ := answersAt_unique hans ⟨hk, by rw [hp], hsilent⟩
    rw [heq] at htake
    exact ⟨head, body, htake ▸ hsent⟩
  · rintro j hj ⟨head, body, hsent⟩
    obtain ⟨⟨-, htrue', -⟩, -⟩ := answersAt_sentence lexicalCast (by omega) hsent
    rw [hsilent j hj] at htrue'
    cases htrue'

/-! ## 4. The theorem -/

/-- Where no length is negative, the length the agent keeps is the declared one. -/
theorem lengthNat_eq {headers : List (Bytes × Bytes)}
    (h : ∀ e ∈ headers, isContentLength e.1 = true → ∀ n, lexicalCast e.2 = some n → 0 ≤ n.toInt) :
    lengthNat lexicalCast headers = (declaredLength lexicalCast headers).toNat := by
  rw [lengthNat, lengthField, declaredLength, lastContentLength]
  cases hf : headers.reverse.find? fun e => isContentLength e.1 with
  | none => rfl
  | some e =>
    have hmem : e ∈ headers := List.mem_reverse.mp (List.mem_of_find?_eq_some hf)
    have hname : isContentLength e.1 = true :=
      List.find?_some (p := fun e : Bytes × Bytes => isContentLength e.1) hf
    simp only [Option.map_some, Option.bind_some]
    cases hn : lexicalCast e.2 with
    | none => rfl
    | some n =>
      have hnn : 0 ≤ n := Int32.le_iff_toInt_le.mpr (h e hmem hname n hn)
      exact Int32.toNat_toUInt32_of_le hnn

/-- On a stream without negative lengths the two notions of a sentence agree on its prefixes. -/
theorem sentence_iff {s : Bytes} (hs : NoNegativeLength lexicalCast s) {j : Nat}
    {head : RequestHead} {body : Bytes} :
    SentenceOf (lengthNat lexicalCast) head body (s.take j) ↔
      SentenceOf (fun hs => (declaredLength lexicalCast hs).toNat) head body (s.take j) := by
  refine and_congr_right fun htake => ?_
  have hpre : head.text <+: s := by
    refine (List.prefix_append head.text body).trans ?_
    rw [← htake]
    exact List.take_prefix j s
  have heq : lengthNat lexicalCast (head.headers.map HeaderLine.pair) =
      (declaredLength lexicalCast (head.headers.map HeaderLine.pair)).toNat := by
    refine lengthNat_eq lexicalCast fun e he hname n hn => ?_
    obtain ⟨h, hmem, rfl⟩ := List.mem_map.mp he
    exact hs head hpre h hmem hname n hn
  rw [heq]

/-- **The parser accepts exactly its grammar**: on a stream without negative lengths the verdict
    `true` falls at byte `k` if and only if the first `k` bytes are a shortest sentence, and the
    parse then holds the request they denote. -/
theorem consume_accepts_sentences {s : Bytes} (hs : NoNegativeLength lexicalCast s) (k : Nat) :
    (AnswersAt (consume lexicalCast) .fresh s k true ↔
      k ≤ s.length ∧ ShortestSentence lexicalCast (s.take k)) ∧
    ∀ head body, AnswersAt (consume lexicalCast) .fresh s k true →
      SentenceOf (fun hs => (declaredLength lexicalCast hs).toNat) head body (s.take k) →
      (feed (consume lexicalCast) .fresh (s.take k)).1.request = head.request body := by
  refine ⟨⟨fun h => ?_, ?_⟩, fun head body h hsent => ?_⟩
  · obtain ⟨⟨head, body, hsent⟩, hshort⟩ := sentence_of_answersAt lexicalCast h
    refine ⟨h.1, ⟨head, body, (sentence_iff lexicalCast hs).mp hsent⟩, fun j hj hj' => ?_⟩
    obtain ⟨head', body', hsent'⟩ := hj'
    have hjk : j < k := lt_of_lt_of_le hj (List.length_take_le k s)
    rw [List.take_take, Nat.min_eq_left hjk.le] at hsent'
    exact hshort j hjk ⟨head', body', (sentence_iff lexicalCast hs).mpr hsent'⟩
  · rintro ⟨hk, ⟨head, body, hsent⟩, -⟩
    exact (answersAt_sentence lexicalCast hk ((sentence_iff lexicalCast hs).mpr hsent)).1
  · exact (answersAt_sentence lexicalCast h.1 ((sentence_iff lexicalCast hs).mpr hsent)).2

end Accepts

/-! ## 5. A request with a body -/

/-- A text without a minus sign denotes no negative number. -/
theorem signedValue_nonneg {text : Bytes} {m : Int} (h : signedValue text = some m)
    (hminus : chr '-' ∉ text) : 0 ≤ m := by
  cases text with
  | nil => cases h
  | cons b ds =>
    have hb : b ≠ chr '-' := fun e => hminus (e ▸ List.mem_cons_self)
    simp only [signedValue, hb, if_false, Bool.false_eq_true] at h
    split at h
    all_goals
      split at h
      · cases h
        exact Int.natCast_nonneg _
      · cases h

theorem intOfText_nonneg {text : Bytes} {n : Int32} (h : intOfText text = some n)
    (hminus : chr '-' ∉ text) : 0 ≤ n.toInt := by
  obtain ⟨m, hm, hn⟩ := Option.bind_eq_some_iff.mp h
  have hm0 := signedValue_nonneg hm hminus
  split at hn
  · rename_i hrange
    cases hn
    rw [Int32.toInt_ofInt_of_le (by omega) (by omega)]
    exact hm0
  · cases hn

theorem minus_mem_of_isContentLength {name : Bytes} (h : isContentLength name = true) :
    chr '-' ∈ name := by
  have hmap : name.map tolower = ascii "content-length" := of_decide_eq_true h
  have hmem : chr '-' ∈ name.map tolower := by
    rw [hmap]
    decide
  obtain ⟨b, hb, hlower⟩ := List.mem_map.mp hmem
  have hminus : ∀ b : UInt8, tolower b = chr '-' → b = chr '-' := by decide +kernel
  exact hminus b hlower ▸ hb

/-- A stream with at most one `-` declares no negative length: the one stands in the header's
    name. -/
theorem noNegativeLength_of_count {s : Bytes} (h : s.count (chr '-') ≤ 1) :
    NoNegativeLength intOfText s := by
  intro head hpre l hl hname n hn
  by_contra hneg
  have hvalue : chr '-' ∈ l.value := by
    by_contra hv
    exact hneg (intOfText_nonneg hn hv)
  have hline : l.text <:+: s := by
    obtain ⟨before, after, hsplit⟩ := List.append_of_mem hl
    refine List.IsInfix.trans ?_ hpre.isInfix
    refine ⟨head.line.text ++ before.flatMap HeaderLine.text,
      after.flatMap HeaderLine.text ++ crlf, ?_⟩
    simp [RequestHead.text, hsplit]
  have h1 := List.count_pos_iff.mpr (minus_mem_of_isContentLength hname)
  have h2 := List.count_pos_iff.mpr hvalue
  have h3 := hline.sublist.count_le (chr '-')
  rw [HeaderLine.text, List.count_append, List.count_append, List.count_append] at h3
  omega

/-- A request whose body is one byte. -/
def oneByteRequest : Bytes := ascii "PUT /a HTTP/1.1\r\nContent-Length: 1\r\n\r\nA"

/-- A request with a body is accepted at its end, and is a sentence. -/
theorem consume_accepts_oneByteRequest :
    NoNegativeLength intOfText oneByteRequest ∧
      ShortestSentence intOfText (oneByteRequest.take 39) := by
  have hnn : NoNegativeLength intOfText oneByteRequest := noNegativeLength_of_count (by decide)
  have hans : AnswersAt (consume intOfText) .fresh oneByteRequest 39 true :=
    ⟨by decide, by decide +kernel, by decide +kernel⟩
  exact ⟨hnn, ((consume_accepts_sentences intOfText hnn 39).1.mp hans).2⟩

end BoostAsioWebServer
