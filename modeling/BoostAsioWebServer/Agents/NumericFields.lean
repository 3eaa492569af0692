/-
  File:      BoostAsioWebServer/Agents/NumericFields.lean
  Subject:   THE NUMBERS OF A REQUEST: the version numbers and the declared length.

  Both are texts of any length that end in a 32-bit field.

  * The version numbers are accumulated digit by digit, and nothing bounds the digits: the fields
    hold the numbers if and only if both of them fit (`versionExact_iff`).
  * The declared length goes through a signed `int` into an unsigned field. The agent waits for as
    many body bytes as the text declares, if and only if the text is no negative number in the
    range of an `int` (`lengthHonoured_iff`): a cast that fails leaves `0`, but a negative number
    is cast without failing and wraps.
    To wait for `n` bytes is what the parser does with them: no shorter body completes the request
    (`BlankLine.awaits`), and one of `n` one-byte characters does (`BlankLine.completes`).
-/
import BoostAsioWebServer.Agents.BodyFraming
import BoostAsioWebServer.Agents.HeadBoundary

namespace BoostAsioWebServer

open ByteText Feed

/-! ## 1. Version numbers -/

/-- A number survives a 32-bit field exactly where it fits. -/
theorem toNat_ofNat_eq_iff (n : Nat) : (UInt32.ofNat n).toNat = n ↔ n < 2 ^ 32 := by
  rw [UInt32.toNat_ofNat']
  exact Nat.mod_eq_iff_lt (by decide)

/-- A fresh parser that gets past the request line holds the version numbers of the line. -/
def VersionExact (lexicalCast : Bytes → Option Int32) (l : RequestLine) : Prop :=
  ∀ p, feed (consume lexicalCast) .fresh l.text = (p, none) →
    p.request.httpVersionMajor.toNat = decimalValue l.major ∧
      p.request.httpVersionMinor.toNat = decimalValue l.minor

/-- **The version numbers are exact if and only if they fit their fields.** -/
theorem versionExact_iff (lexicalCast : Bytes → Option Int32) (l : RequestLine) :
    VersionExact lexicalCast l ↔ decimalValue l.major < 2 ^ 32 ∧ decimalValue l.minor < 2 ^ 32 := by
  rw [← toNat_ofNat_eq_iff, ← toNat_ofNat_eq_iff]
  have hline := feed_line lexicalCast l
  constructor
  · intro hexact
    exact hexact _ hline
  · intro hfit p hp
    rw [hline] at hp
    cases hp
    exact hfit

theorem numberText_wrapping : NumberText (ascii "4294967297") :=
  ⟨by decide, by decide +kernel⟩

/-- Version 4294967297.1 gets past the parser, and is recorded as version 1.1 is. -/
theorem version_wraps :
    ¬ VersionExact intOfText (getLine (ascii "4294967297") numberText_wrapping) ∧
      feed (consume intOfText) .fresh (getLine (ascii "4294967297") numberText_wrapping).text =
        feed (consume intOfText) .fresh (getLine (ascii "1") numberText_one).text := by
  constructor
  · intro hexact
    obtain ⟨hmajor, -⟩ := hexact _ (feed_line intOfText _)
    exact absurd hmajor (by decide +kernel)
  · rw [feed_line, feed_line]
    decide +kernel

/-! ## 2. The declared length -/

section Length

variable {lexicalCast : Bytes → Option Int32}

/-- The parser has accepted a header section: the bytes up to the line feed of its blank line,
    and the parse and the verdict that this line feed gives. -/
def BlankLine (lexicalCast : Bytes → Option Int32) (s : Bytes) (p : Parse) (o : Option Bool) :
    Prop :=
  ∃ before q, s = before ++ [LF] ∧ feed (consume lexicalCast) .fresh before = (q, none) ∧
    q.agent.state = .expectingNewline3 ∧ consume lexicalCast q LF = (p, o)

/-- The body bytes waited for behind the blank line: none where the verdict is there. -/
def bodyAwaited (p : Parse) (o : Option Bool) : Nat :=
  if o = some true then 0 else p.agent.contentLength.toNat

/-- What the blank line makes of the text `v` of the last Content-Length header. -/
structure LengthHonoured (v : Bytes) (p : Parse) (o : Option Bool) : Prop where
  /-- A decimal text is waited for in full. -/
  exact : ∀ n, DecimalText v n → bodyAwaited p o = n
  /-- Behind a text of no non-negative number the request is complete, and empty. -/
  complete : (¬ ∃ m, 0 ≤ m ∧ signedValue v = some m) → o = some true ∧ p.request.content = []
  /-- Never more is waited for than the text denotes. -/
  bounded : ∀ m, 0 ≤ m → signedValue v = some m → bodyAwaited p o ≤ m

/-- An accepted header section is a head of the grammar, and the blank line compares the length
    it declares with zero. -/
theorem BlankLine.spec {s : Bytes} {p : Parse} {o : Option Bool} (h : BlankLine lexicalCast s p o) :
    ∃ head : RequestHead, s = head.text ∧ p.request = head.request [] ∧
      o = (if lengthNat lexicalCast p.request.headers = 0 then some true else none) ∧
      bodyAwaited p o = lengthNat lexicalCast p.request.headers := by
  obtain ⟨before, q, rfl, hbefore, hstate, hlf⟩ := h
  have hread := reads_of_feed hbefore
  cases hread with
  | newline3 l hs =>
    have hpos := fieldOf_pos_iff lexicalCast hs
    by_cases h0 : fieldOf lexicalCast hs > 0
    · rw [consume_blankLine_body h0] at hlf
      cases hlf
      exact ⟨⟨l, hs⟩, (RequestHead.text_split ⟨l, hs⟩).symm, rfl, (if_neg (hpos.mp h0)).symm, rfl⟩
    · rw [consume_blankLine_empty h0] at hlf
      cases hlf
      have heq : lengthNat lexicalCast (hs.map HeaderLine.pair) = 0 := not_not.mp (mt hpos.mpr h0)
      exact ⟨⟨l, hs⟩, (RequestHead.text_split ⟨l, hs⟩).symm, rfl, (if_pos heq).symm, heq.symm⟩
  | literal hm hu hlit =>
    cases (show _ = ParsingState.expectingNewline3 from hstate)
    exact absurd hlit (by simp [versionLiterals])
  | @continuation head chars lead conts size hchars hlt hlead hconts hsize =>
    have : continuationState conts.length ≠ .expectingNewline3 := by
      unfold continuationState
      split <;> decide
    exact absurd hstate this
  | _ => cases hstate

/-- The bytes of an accepted header section are read without a verdict, or with the one of the
    blank line. -/
theorem BlankLine.reads {s : Bytes} {p : Parse} {o : Option Bool} (h : BlankLine lexicalCast s p o) :
    feed (consume lexicalCast) .fresh s = (p, o) := by
  obtain ⟨before, q, rfl, hbefore, -, hlf⟩ := h
  rw [feed_append_none hbefore, feed_singleton]
  exact hlf

/-- **No body that is shorter than the awaited number completes the request.** -/
theorem BlankLine.awaits {s body : Bytes} {p r : Parse} (h : BlankLine lexicalCast s p none)
    (hbody : feed (consume lexicalCast) p body = (r, some true)) :
    bodyAwaited p none ≤ body.length := by
  obtain ⟨head, hs, hreq, -, hawaited⟩ := h.spec
  -- what is accepted behind the blank line is the body of a sentence with this very head
  have haccepted : feed (consume lexicalCast) .fresh (s ++ body) = (r, some true) := by
    rw [feed_append_none h.reads]
    exact hbody
  obtain ⟨head', body', rest, hstream, ⟨-, hbody'⟩, -⟩ := sentence_of_feed haccepted
  rw [hs, List.append_assoc] at hstream
  obtain ⟨-, hsame, hsplit⟩ := RequestHead.unique hstream
  have hheaders : head.headers.map HeaderLine.pair = head'.headers.map HeaderLine.pair :=
    congrArg Request.headers hsame
  have hlength : lengthNat lexicalCast (head'.headers.map HeaderLine.pair) =
      bodyAwaited p none := by
    rw [hawaited, hreq, ← hheaders]
    rfl
  rw [hlength] at hbody'
  have hle : bodyAwaited p none ≤ body'.length := hbody'.length_ge
  rw [hsplit, List.length_append]
  exact Nat.le_trans hle (Nat.le_add_right _ _)

/-- **A body of as many one-byte characters as are awaited completes it**, and is its content. -/
theorem BlankLine.completes {s body : Bytes} {p : Parse} (h : BlankLine lexicalCast s p none)
    (hbody : ∀ c ∈ body, c.toNat < 0x80) (hlength : body.length = bodyAwaited p none) :
    ∃ r, feed (consume lexicalCast) p body = (r, some true) ∧ r.request.content = body := by
  obtain ⟨head, hs, hreq, -, hawaited⟩ := h.spec
  have hdeclared : lengthNat lexicalCast (head.headers.map HeaderLine.pair) = body.length := by
    rw [hlength, hawaited, hreq]
    rfl
  have hsentence : SentenceOf (lengthNat lexicalCast) head body (s ++ body) := by
    refine ⟨by rw [hs], ?_⟩
    rw [hdeclared]
    exact Body.of_single hbody
  obtain ⟨ys, c, t, r, hsplit, hys, hc, hr⟩ := feed_sentence lexicalCast hsentence
  have haccepted : feed (consume lexicalCast) .fresh (s ++ body) = (r, some true) := by
    rw [hsplit, feed_append_none hys, feed_singleton, hc]
  rw [feed_append_none h.reads] at haccepted
  exact ⟨r, haccepted, by rw [hr]; rfl⟩

/-- The field that a text in the last Content-Length header leaves. -/
theorem lengthNat_text (hcast : LexicalCastSpec lexicalCast) {headers : List (Bytes × Bytes)}
    {v : Bytes} (hv : lastContentLength headers = some v) :
    lengthNat lexicalCast headers =
      match intOfText v with
      | some n => n.toUInt32.toNat
      | none => 0 := by
  rw [lengthNat, lengthField, hv, Option.bind_some, hcast v]
  cases intOfText v <;> rfl

/-- An `int` that is not negative keeps its value in an `unsigned int`; a negative one does not
    become zero. -/
theorem toUInt32_ofInt (m : Int) (hlow : -2 ^ 31 ≤ m) (hhigh : m < 2 ^ 31) :
    (0 ≤ m → ((Int32.ofInt m).toUInt32.toNat : Int) = m) ∧
      (m < 0 → (Int32.ofInt m).toUInt32.toNat ≠ 0) := by
  have hm : (Int32.ofInt m).toInt = m := Int32.toInt_ofInt_of_le (by omega) (by omega)
  constructor
  · intro h0
    have hle : 0 ≤ Int32.ofInt m := Int32.le_iff_toInt_le.mpr (by rw [hm]; exact h0)
    rw [Int32.toNat_toUInt32_of_le hle, ← Int32.toNat_toInt, hm]
    exact Int.toNat_of_nonneg h0
  · intro hneg h0
    have hzero : (Int32.ofInt m).toUInt32 = 0 := UInt32.toNat_inj.mp h0
    have hback := congrArg (fun x : UInt32 => x.toInt32.toInt) hzero
    simp only [Int32.toInt32_toUInt32, hm] at hback
    have h0' : (0 : UInt32).toInt32.toInt = 0 := by decide
    omega

/-- **The declared length is honoured if and only if it is no negative `int`.** -/
theorem lengthHonoured_iff (hcast : LexicalCastSpec lexicalCast) {s v : Bytes} {p : Parse}
    {o : Option Bool} (hblank : BlankLine lexicalCast s p o)
    (hv : lastContentLength p.request.headers = some v) :
    LengthHonoured v p o ↔ ¬ ∃ m, signedValue v = some m ∧ -2 ^ 31 ≤ m ∧ m < 0 := by
  obtain ⟨head, -, hreq, ho, hawaited⟩ := hblank.spec
  have hlen := lengthNat_text hcast hv
  constructor
  · intro hhonoured h
    obtain ⟨m, hm, hlow, hneg⟩ := h
    have hnone : ¬ ∃ m, 0 ≤ m ∧ signedValue v = some m := by
      intro h
      obtain ⟨m', hm', hs⟩ := h
      rw [hm] at hs
      cases hs
      omega
    obtain ⟨htrue, -⟩ := hhonoured.complete hnone
    -- the cast of the negative number succeeds, and leaves a number that is not zero
    have hint : intOfText v = some (Int32.ofInt m) := by
      rw [intOfText, hm, Option.bind_some, if_pos ⟨hlow, by omega⟩]
    have hne : lengthNat lexicalCast p.request.headers ≠ 0 := by
      rw [hlen, hint]
      exact (toUInt32_ofInt m hlow (by omega)).2 hneg
    rw [ho, if_neg hne] at htrue
    cases htrue
  · intro hcond
    have hzero : (¬ ∃ m, 0 ≤ m ∧ signedValue v = some m) →
        lengthNat lexicalCast p.request.headers = 0 := by
      intro hnone
      have hint : intOfText v = none := by
        rw [intOfText]
        cases hm : signedValue v with
        | none => rfl
        | some m =>
          refine if_neg fun hrange => hcond ⟨m, hm, hrange.1, ?_⟩
          by_contra h0
          exact hnone ⟨m, by omega, hm⟩
      rw [hlen, hint]
    refine ⟨fun n hn => ?_, fun hnone => ?_, fun m h0 hm => ?_⟩
    · rw [hawaited, lengthNat_decimal hcast hv hn]
    · exact ⟨by rw [ho, if_pos (hzero hnone)], by rw [hreq]; rfl⟩
    · rw [hawaited, hlen, intOfText, hm, Option.bind_some]
      by_cases hrange : -2 ^ 31 ≤ m ∧ m < 2 ^ 31
      · rw [if_pos hrange]
        exact ((toUInt32_ofInt m hrange.1 hrange.2).1 h0).le
      · rw [if_neg hrange]
        exact h0

end Length

/-- A header section that declares the length `-1`. -/
def negativeLength : Bytes := ascii "GET / HTTP/1.1\r\nContent-Length: -1\r\n\r\n"

/-- A header section that declares the length `7`. -/
def sevenBytesLength : Bytes := ascii "GET / HTTP/1.1\r\nContent-Length: 7\r\n\r\n"

/-- The parse and the verdict behind a header section. -/
def behind (s : Bytes) : Parse × Option Bool := feed (consume intOfText) .fresh s

theorem blankLine_behind {s : Bytes} (before : Bytes) (hs : s = before ++ [LF])
    (hbefore : behind before = ((behind before).1, none))
    (hstate : (behind before).1.agent.state = .expectingNewline3) :
    BlankLine intOfText s (behind s).1 (behind s).2 := by
  refine ⟨before, (behind before).1, hs, hbefore, hstate, ?_⟩
  rw [hs]
  show _ = feed (consume intOfText) .fresh (before ++ [LF])
  rw [feed_append_none hbefore, feed_singleton]

/-- Behind `Content-Length: 7` seven bytes are waited for. -/
theorem lengthHonoured_seven :
    LexicalCastSpec intOfText ∧
      LengthHonoured (ascii "7") (behind sevenBytesLength).1 (behind sevenBytesLength).2 := by
  have hcast : LexicalCastSpec intOfText := fun _ => rfl
  have hblank : BlankLine intOfText sevenBytesLength (behind sevenBytesLength).1
      (behind sevenBytesLength).2 :=
    blankLine_behind sevenBytesLength.dropLast (by decide) (by decide +kernel) (by decide +kernel)
  refine ⟨hcast, (lengthHonoured_iff hcast hblank (by decide +kernel)).mpr ?_⟩
  intro h
  obtain ⟨m, hm, -, hneg⟩ := h
  have h7 : signedValue (ascii "7") = some 7 := by decide
  rw [h7] at hm
  cases hm
  omega

/-- Behind `Content-Length: -1` four billion bytes are waited for. -/
theorem lengthHonoured_negative_fails :
    LexicalCastSpec intOfText ∧
      BlankLine intOfText negativeLength (behind negativeLength).1 (behind negativeLength).2 ∧
      lastContentLength (behind negativeLength).1.request.headers = some (ascii "-1") ∧
      bodyAwaited (behind negativeLength).1 (behind negativeLength).2 = 2 ^ 32 - 1 ∧
      ¬ LengthHonoured (ascii "-1") (behind negativeLength).1 (behind negativeLength).2 := by
  have hblank : BlankLine intOfText negativeLength (behind negativeLength).1
      (behind negativeLength).2 :=
    blankLine_behind negativeLength.dropLast (by decide) (by decide +kernel) (by decide +kernel)
  refine ⟨fun _ => rfl, hblank, by decide +kernel, by decide +kernel, fun hhonoured => ?_⟩
  have hminus : signedValue (ascii "-1") = some (-1) := by decide
  have hnone : ¬ ∃ m, 0 ≤ m ∧ signedValue (ascii "-1") = some m := by
    intro h
    obtain ⟨m, hm, hs⟩ := h
    rw [hminus] at hs
    cases hs
    omega
  obtain ⟨htrue, -⟩ := hhonoured.complete hnone
  exact absurd htrue (by decide +kernel)

end BoostAsioWebServer
