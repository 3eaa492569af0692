/-
  File:      BoostAsioWebServer/Agents/BodyFraming.lean
  Subject:   BODY FRAMING: how many bytes of content a declared length gives.

  The parser compares the stored content with the declared length by `>=`, and only behind a whole
  character. `BodyExact` is the exact framing -- an accepted request whose last Content-Length is
  `n` holds the `n` bytes behind the blank line. It is met on a stream if and only if no character
  of the body crosses byte `n` (`bodyExact_iff`); `crossingRequest` is a stream on which one does.
-/
import BoostAsioWebServer.Agents.RequestParserAccepts

namespace BoostAsioWebServer

open ByteText Feed

/-! ## 1. Exact framing -/

/-- The text is a decimal number that fits a non-negative 32-bit `int`. -/
def DecimalText (text : Bytes) (n : Nat) : Prop :=
  NumberText text ∧ decimalValue text = n ∧ n < 2 ^ 31

/-- The bytes of a list of buffers. -/
def streamOf (buffers : List Buffer) : Bytes := (buffers.map Buffer.data).flatten

/-- An accepted request whose last Content-Length header holds `n` has as its content the `n`
    bytes behind the blank line. -/
def BodyExact (lexicalCast : Bytes → Option Int32) (buffers : List Buffer) : Prop :=
  ∀ p, parseBuffers lexicalCast .fresh buffers = (p, some true) →
    ∀ v n, lastContentLength p.request.headers = some v → DecimalText v n →
      ∃ (head : RequestHead) (rest : Bytes), streamOf buffers = head.text ++ rest ∧
        p.request.headers = head.headers.map HeaderLine.pair ∧
        p.request.content.length = n ∧ p.request.content = rest.take n

/-- A character of the body starts before byte `n` and ends behind it. -/
def Crosses (n : Nat) (rest : Bytes) : Prop :=
  ∃ (chars : List Bytes) (w tail : Bytes), (∀ c ∈ chars, Utf8Shaped c) ∧ Utf8Shaped w ∧
    rest = chars.flatten ++ w ++ tail ∧ chars.flatten.length < n ∧ n < (chars.flatten ++ w).length

/-- The stream is a head that declares a length, and a character crosses it behind the head. -/
def BodyCrosses (stream : Bytes) : Prop :=
  ∃ (head : RequestHead) (rest v : Bytes) (n : Nat), stream = head.text ++ rest ∧
    lastContentLength (head.headers.map HeaderLine.pair) = some v ∧ DecimalText v n ∧
    Crosses n rest

/-! ## 2. The declared length -/

theorem signedValue_decimal {text : Bytes} (h : NumberText text) :
    signedValue text = some (decimalValue text : Int) := by
  obtain ⟨hne, hdigits⟩ := h
  have hall : text.all (IsDigit ·) = true :=
    List.all_eq_true.mpr fun b hb => decide_eq_true (hdigits b hb)
  cases text with
  | nil => exact absurd rfl hne
  | cons b ds =>
    have hb := hdigits b List.mem_cons_self
    have hminus : b ≠ chr '-' := fun e => absurd (e ▸ hb) (by decide)
    have hplus : b ≠ chr '+' := fun e => absurd (e ▸ hb) (by decide)
    simp only [signedValue, hminus, hplus, if_false, Bool.false_eq_true]
    rw [if_pos ⟨hne, hall⟩]

/-- A decimal text is cast to its number. -/
theorem intOfText_decimal {text : Bytes} {n : Nat} (h : DecimalText text n) :
    intOfText text = some (Int32.ofNat n) := by
  obtain ⟨htext, rfl, hlt⟩ := h
  have hrange : -2 ^ 31 ≤ (decimalValue text : Int) ∧ (decimalValue text : Int) < 2 ^ 31 := by omega
  rw [intOfText, signedValue_decimal htext, Option.bind_some, if_pos hrange, Int32.ofInt_eq_ofNat]

/-- The agent compares with the number the last Content-Length header holds. -/
theorem lengthNat_decimal {lexicalCast : Bytes → Option Int32} (hcast : LexicalCastSpec lexicalCast)
    {headers : List (Bytes × Bytes)} {v : Bytes} {n : Nat} (hv : lastContentLength headers = some v)
    (hn : DecimalText v n) : lengthNat lexicalCast headers = n := by
  rw [lengthNat, lengthField, hv, Option.bind_some, hcast v, intOfText_decimal hn]
  show (Int32.ofNat n).toUInt32.toNat = n
  rw [Int32.toUInt32_ofNat', UInt32.toNat_ofNat']
  exact Nat.mod_eq_of_lt (lt_of_lt_of_le hn.2.2 (by decide))

/-- A body has at least the bytes it is declared to have. -/
theorem Body.length_ge {n : Nat} {body : Bytes} (h : Body n body) : n ≤ body.length := by
  by_cases hn : n = 0
  · rw [hn]
    exact Nat.zero_le _
  · rw [Body, if_neg hn] at h
    obtain ⟨-, -, -, -, -, -, hge⟩ := h
    exact hge

/-- One-byte characters are a body of the length they have. -/
theorem Body.of_single {body : Bytes} (h : ∀ c ∈ body, c.toNat < 0x80) :
    Body body.length body := by
  have hshaped : ∀ c ∈ body, Utf8Shaped [c] := fun c hc => ⟨c, [], rfl, .one (h c hc), by simp⟩
  rcases List.eq_nil_or_concat' body with rfl | ⟨front, last, rfl⟩
  · rw [Body, if_pos (by rfl)]
  · have hflatten : (front.map fun c => [c]).flatten = front :=
      List.flatMap_singleton' front
    have hpos : (front ++ [last]).length ≠ 0 := by simp
    rw [Body, if_neg hpos]
    refine ⟨front.map fun c => [c], [last], ?_, ?_, ?_, ?_, le_rfl⟩
    · intro w hw
      obtain ⟨c, hc, rfl⟩ := List.mem_map.mp hw
      exact hshaped c (List.mem_append_left _ hc)
    · exact hshaped last (List.mem_append_right _ List.mem_cons_self)
    · rw [hflatten]
    · rw [hflatten, List.length_append]
      exact Nat.lt_add_of_pos_right Nat.zero_lt_one

/-! ## 3. The theorem -/

/-- A body of declared length `n` has `n` bytes, or its last character crosses byte `n`. -/
theorem Body.exact_or_crosses {n : Nat} {body : Bytes} (h : Body n body) (tail : Bytes) :
    body.length = n ∨ Crosses n (body ++ tail) := by
  by_cases hn : n = 0
  · rw [Body, if_pos hn] at h
    subst h
    exact Or.inl hn.symm
  · rw [Body, if_neg hn] at h
    obtain ⟨chars, last, hchars, hlast, rfl, hlt, hge⟩ := h
    rcases Nat.lt_or_eq_of_le hge with hgt | heq
    · exact Or.inr ⟨chars, last, tail, hchars, hlast, rfl, hlt, hgt⟩
    · exact Or.inl heq.symm

/-- **Framing is exact if and only if no character crosses the declared length.** -/
theorem bodyExact_iff {lexicalCast : Bytes → Option Int32} (hcast : LexicalCastSpec lexicalCast)
    (buffers : List Buffer) :
    BodyExact lexicalCast buffers ↔ ¬ BodyCrosses (streamOf buffers) := by
  constructor
  · rintro hexact ⟨head, rest, v, n, hstream, hv, hn, chars, w, tail, hchars, hw, rfl, hlt, hgt⟩
    have hlen := lengthNat_decimal hcast hv hn
    -- the crossing character ends the body of a sentence, so the request is accepted there
    have hbody : Body (lengthNat lexicalCast (head.headers.map HeaderLine.pair))
        (chars.flatten ++ w) := by
      rw [hlen, Body, if_neg (Nat.ne_of_gt (Nat.zero_lt_of_lt hlt))]
      exact ⟨chars, w, hchars, hw, rfl, hlt, hgt.le⟩
    obtain ⟨ys, c, t, p, hs, hys, hc, hr⟩ := feed_sentence lexicalCast ⟨rfl, hbody⟩
    have haccepted : parseBuffers lexicalCast .fresh buffers = (p, some true) := by
      rw [parseBuffers_flatten]
      show feed _ _ (streamOf buffers) = _
      rw [hstream, ← List.append_assoc, hs]
      refine feed_append_some ?_ tail
      rw [feed_append_none hys, feed_singleton, hc]
    have hheaders : p.request.headers = head.headers.map HeaderLine.pair := by
      rw [hr]
      rfl
    obtain ⟨-, -, -, -, hcontent, -⟩ := hexact p haccepted v n (by rw [hheaders, hv]) hn
    rw [hr] at hcontent
    exact Nat.ne_of_gt hgt hcontent
  · intro hcross p hp v n hv hn
    rw [parseBuffers_flatten] at hp
    obtain ⟨head, body, rest, hs, ⟨-, hbody⟩, hr⟩ := sentence_of_feed hp
    have hheaders : p.request.headers = head.headers.map HeaderLine.pair := by
      rw [hr]
      rfl
    rw [hheaders] at hv
    rw [lengthNat_decimal hcast hv hn] at hbody
    have hstream : streamOf buffers = head.text ++ (body ++ rest) := by
      rw [← List.append_assoc]
      exact hs
    rcases hbody.exact_or_crosses rest with hlen | hcrosses
    · refine ⟨head, body ++ rest, hstream, hheaders, by rw [hr]; exact hlen, ?_⟩
      rw [hr, ← hlen]
      exact List.take_left.symm
    · exact absurd ⟨head, body ++ rest, v, n, hstream, hv, hn, hcrosses⟩ hcross

/-! ## 4. A character that crosses -/

/-- A request that declares one byte, and a body that is one character of two bytes. -/
def crossingRequest : Buffer :=
  ⟨ascii "GET / HTTP/1.1\r\nContent-Length: 1\r\n\r\n" ++ [0xC3, 0x91], by decide +kernel⟩

theorem crossingRequest_not_exact : ¬ BodyExact intOfText [crossingRequest] := by
  intro hexact
  have haccepted : parseBuffers intOfText .fresh [crossingRequest] =
      ((parseBuffers intOfText .fresh [crossingRequest]).1, some true) := by decide +kernel
  have hv : lastContentLength (parseBuffers intOfText .fresh [crossingRequest]).1.request.headers =
      some (ascii "1") := by decide +kernel
  have hn : DecimalText (ascii "1") 1 := ⟨numberText_singleton (by decide), by decide, by omega⟩
  obtain ⟨-, -, -, -, hlength, -⟩ := hexact _ haccepted _ _ hv hn
  exact absurd hlength (by decide +kernel)

/-- Two bytes of content are accepted where one is declared. -/
theorem bodyExact_crossingRequest_fails :
    LexicalCastSpec intOfText ∧ ¬ BodyExact intOfText [crossingRequest] :=
  ⟨fun _ => rfl, crossingRequest_not_exact⟩

/-- The character that crosses on that stream. -/
theorem bodyCrosses_crossingRequest : BodyCrosses (streamOf [crossingRequest]) := by
  have h := (bodyExact_iff (fun _ => rfl) [crossingRequest]).not.mp crossingRequest_not_exact
  exact not_not.mp h

end BoostAsioWebServer
