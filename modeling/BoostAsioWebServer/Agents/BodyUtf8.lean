/-
  File:      BoostAsioWebServer/Agents/BodyUtf8.lean
  Subject:   THE BODY AND UTF-8.

  `Utf8Char` is the table of UTF-8: which bytes may follow which lead byte. The parser looks at
  the shape of a character only (`Utf8Shaped`): its lead byte announces a length, and as many
  continuation bytes follow. A shaped character is in the table unless it is `Malformed` -- an
  overlong encoding, a surrogate, or a code point above U+10FFFF (`utf8Char_iff`).

  Shaped characters are a prefix code, so a body has one reading; the parser accepts it if it has
  any (`accepted_iff_shaped`), and thus accepts exactly UTF-8 if and only if no character of the
  body is malformed (`utf8Exact_iff`).
-/
import BoostAsioWebServer.Agents.BodyFraming
import BoostAsioWebServer.Agents.HeadBoundary
import BoostAsioWebServer.Lib.PrefixCode

namespace BoostAsioWebServer

open ByteText Feed PrefixCode

/-! ## 1. UTF-8 -/

/-- The encodings of UTF-8 characters, by the ranges of the lead byte. -/
inductive Utf8Char : Bytes → Prop where
  | one {a : UInt8} (ha : a.toNat ≤ 0x7F) : Utf8Char [a]
  | two {a b : UInt8} (ha : 0xC2 ≤ a.toNat ∧ a.toNat ≤ 0xDF) (hb : IsContinuation b) :
      Utf8Char [a, b]
  | threeE0 {a b c : UInt8} (ha : a.toNat = 0xE0) (hb : 0xA0 ≤ b.toNat ∧ b.toNat ≤ 0xBF)
      (hc : IsContinuation c) : Utf8Char [a, b, c]
  | three {a b c : UInt8} (ha : (0xE1 ≤ a.toNat ∧ a.toNat ≤ 0xEC) ∨ (0xEE ≤ a.toNat ∧ a.toNat ≤ 0xEF))
      (hb : IsContinuation b) (hc : IsContinuation c) : Utf8Char [a, b, c]
  | threeED {a b c : UInt8} (ha : a.toNat = 0xED) (hb : 0x80 ≤ b.toNat ∧ b.toNat ≤ 0x9F)
      (hc : IsContinuation c) : Utf8Char [a, b, c]
  | fourF0 {a b c d : UInt8} (ha : a.toNat = 0xF0) (hb : 0x90 ≤ b.toNat ∧ b.toNat ≤ 0xBF)
      (hc : IsContinuation c) (hd : IsContinuation d) : Utf8Char [a, b, c, d]
  | four {a b c d : UInt8} (ha : 0xF1 ≤ a.toNat ∧ a.toNat ≤ 0xF3) (hb : IsContinuation b)
      (hc : IsContinuation c) (hd : IsContinuation d) : Utf8Char [a, b, c, d]
  | fourF4 {a b c d : UInt8} (ha : a.toNat = 0xF4) (hb : 0x80 ≤ b.toNat ∧ b.toNat ≤ 0x8F)
      (hc : IsContinuation c) (hd : IsContinuation d) : Utf8Char [a, b, c, d]

/-- A text of UTF-8 characters. -/
def WellFormedUtf8 (text : Bytes) : Prop :=
  ∃ chars : List Bytes, (∀ w ∈ chars, Utf8Char w) ∧ text = chars.flatten

/-- The mark a lead byte with `n` continuation bytes carries above its bits of the code point. -/
def leadMark : Nat → Nat
  | 0 => 0
  | 1 => 0xC0
  | 2 => 0xE0
  | _ => 0xF0

/-- The code point a shaped character writes: six bits a continuation byte. -/
def codePoint : Bytes → Nat
  | [] => 0
  | lead :: conts =>
    conts.foldl (fun v b => v * 64 + (b.toNat - 0x80)) (lead.toNat - leadMark conts.length)

/-- The least code point that takes as many bytes. -/
def leastCodePoint : Bytes → Nat
  | [_, _] => 0x80
  | [_, _, _] => 0x800
  | [_, _, _, _] => 0x10000
  | _ => 0

/-- What UTF-8 rules out of the shaped characters. -/
inductive Malformed (w : Bytes) : Prop where
  | overlong (h : codePoint w < leastCodePoint w)
  | surrogate (h : 0xD800 ≤ codePoint w ∧ codePoint w ≤ 0xDFFF)
  | beyond (h : 0x10FFFF < codePoint w)

/-- The body is a run of shaped characters, and one of them is malformed. -/
def HoldsMalformed (body : Bytes) : Prop :=
  ∃ chars : List Bytes, (∀ w ∈ chars, Utf8Shaped w) ∧ body = chars.flatten ∧
    ∃ w ∈ chars, Malformed w

/-! ## 2. The table and the shape -/

/-- A shaped character by its length. -/
theorem Utf8Shaped.cases_length {w : Bytes} (h : Utf8Shaped w) :
    (∃ a, w = [a] ∧ a.toNat < 0x80) ∨
    (∃ a b, w = [a, b] ∧ (0xC0 ≤ a.toNat ∧ a.toNat < 0xE0) ∧ IsContinuation b) ∨
    (∃ a b c, w = [a, b, c] ∧ (0xE0 ≤ a.toNat ∧ a.toNat < 0xF0) ∧ IsContinuation b ∧
      IsContinuation c) ∨
    (∃ a b c d, w = [a, b, c, d] ∧ (0xF0 ≤ a.toNat ∧ a.toNat < 0xF8) ∧ IsContinuation b ∧
      IsContinuation c ∧ IsContinuation d) := by
  obtain ⟨a, conts, rfl, hlead, hconts⟩ := h
  generalize hn : conts.length + 1 = n at hlead
  cases hlead with
  | one ha =>
    obtain rfl := List.length_eq_zero_iff.mp (Nat.succ.inj hn)
    exact Or.inl ⟨a, rfl, ha⟩
  | two ha =>
    obtain ⟨b, rfl⟩ := List.length_eq_one_iff.mp (Nat.succ.inj hn)
    exact Or.inr (Or.inl ⟨a, b, rfl, ha, hconts b (by simp)⟩)
  | three ha =>
    obtain ⟨b, c, rfl⟩ := List.length_eq_two.mp (Nat.succ.inj hn)
    exact Or.inr (Or.inr (Or.inl ⟨a, b, c, rfl, ha, hconts b (by simp), hconts c (by simp)⟩))
  | four ha =>
    obtain ⟨b, c, d, rfl⟩ := List.length_eq_three.mp (Nat.succ.inj hn)
    exact Or.inr (Or.inr (Or.inr ⟨a, b, c, d, rfl, ha, hconts b (by simp), hconts c (by simp),
      hconts d (by simp)⟩))

theorem malformed_iff (w : Bytes) :
    Malformed w ↔ codePoint w < leastCodePoint w ∨
      (0xD800 ≤ codePoint w ∧ codePoint w ≤ 0xDFFF) ∨ 0x10FFFF < codePoint w := by
  constructor
  · intro h
    cases h with
    | overlong h => exact Or.inl h
    | surrogate h => exact Or.inr (Or.inl h)
    | beyond h => exact Or.inr (Or.inr h)
  · intro h
    rcases h with h | h | h
    · exact .overlong h
    · exact .surrogate h
    · exact .beyond h

theorem codePoint_two (a b : UInt8) :
    codePoint [a, b] = (a.toNat - 0xC0) * 64 + (b.toNat - 0x80) := rfl

theorem codePoint_three (a b c : UInt8) :
    codePoint [a, b, c] =
      ((a.toNat - 0xE0) * 64 + (b.toNat - 0x80)) * 64 + (c.toNat - 0x80) := rfl

theorem codePoint_four (a b c d : UInt8) :
    codePoint [a, b, c, d] =
      (((a.toNat - 0xF0) * 64 + (b.toNat - 0x80)) * 64 + (c.toNat - 0x80)) * 64 +
        (d.toNat - 0x80) := rfl

/-- A character of the table has a code point that UTF-8 allows. -/
theorem Utf8Char.not_malformed {w : Bytes} (h : Utf8Char w) : ¬ Malformed w := by
  rw [malformed_iff]
  cases h with
  | @one a ha =>
    have hcode : codePoint [a] = a.toNat := rfl
    simp only [hcode, leastCodePoint]
    omega
  | _ =>
    simp only [codePoint_two, codePoint_three, codePoint_four, leastCodePoint, IsContinuation] at *
    omega

/-- A shaped character with a code point that UTF-8 allows is in the table. -/
theorem Utf8Shaped.utf8Char {w : Bytes} (h : Utf8Shaped w) (hgood : ¬ Malformed w) :
    Utf8Char w := by
  rw [malformed_iff] at hgood
  rcases h.cases_length with ⟨a, rfl, ha⟩ | ⟨a, b, rfl, ha, hb⟩ | ⟨a, b, c, rfl, ha, hb, hc⟩ |
    ⟨a, b, c, d, rfl, ha, hb, hc, hd⟩
  · exact .one (by omega)
  · have hb' : 0x80 ≤ b.toNat ∧ b.toNat < 0xC0 := hb
    simp only [codePoint_two, leastCodePoint] at hgood
    exact .two ⟨by omega, by omega⟩ hb
  · have hb' : 0x80 ≤ b.toNat ∧ b.toNat < 0xC0 := hb
    have hc' : 0x80 ≤ c.toNat ∧ c.toNat < 0xC0 := hc
    simp only [codePoint_three, leastCodePoint] at hgood
    by_cases hE0 : a.toNat = 0xE0
    · exact .threeE0 hE0 ⟨by omega, by omega⟩ hc
    by_cases hED : a.toNat = 0xED
    · exact .threeED hED ⟨by omega, by omega⟩ hc
    exact .three (by omega) hb hc
  · have hb' : 0x80 ≤ b.toNat ∧ b.toNat < 0xC0 := hb
    have hc' : 0x80 ≤ c.toNat ∧ c.toNat < 0xC0 := hc
    have hd' : 0x80 ≤ d.toNat ∧ d.toNat < 0xC0 := hd
    simp only [codePoint_four, leastCodePoint] at hgood
    by_cases hF0 : a.toNat = 0xF0
    · exact .fourF0 hF0 ⟨by omega, by omega⟩ hc hd
    by_cases hF4 : a.toNat = 0xF4
    · exact .fourF4 hF4 ⟨by omega, by omega⟩ hc hd
    exact .four (by omega) hb hc hd

/-- A character of the table is shaped. -/
theorem Utf8Char.shaped {w : Bytes} (h : Utf8Char w) : Utf8Shaped w := by
  have htail {b : UInt8} {l u : Nat} (hb : l ≤ b.toNat ∧ b.toNat ≤ u) (hl : 0x80 ≤ l)
      (hu : u < 0xC0) : IsContinuation b := ⟨by omega, by omega⟩
  cases h with
  | one ha => exact ⟨_, [], rfl, .one (by omega), by simp⟩
  | two ha hb => exact ⟨_, [_], rfl, .two (by omega), by simp [hb]⟩
  | threeE0 ha hb hc =>
    exact ⟨_, [_, _], rfl, .three (by omega), by simp [htail hb (by decide) (by decide), hc]⟩
  | three ha hb hc => exact ⟨_, [_, _], rfl, .three (by omega), by simp [hb, hc]⟩
  | threeED ha hb hc =>
    exact ⟨_, [_, _], rfl, .three (by omega), by simp [htail hb (by decide) (by decide), hc]⟩
  | fourF0 ha hb hc hd =>
    exact ⟨_, [_, _, _], rfl, .four (by omega), by simp [htail hb (by decide) (by decide), hc, hd]⟩
  | four ha hb hc hd => exact ⟨_, [_, _, _], rfl, .four (by omega), by simp [hb, hc, hd]⟩
  | fourF4 ha hb hc hd =>
    exact ⟨_, [_, _, _], rfl, .four (by omega), by simp [htail hb (by decide) (by decide), hc, hd]⟩

/-- **A shaped character is in the table exactly where it is not malformed.** -/
theorem utf8Char_iff {w : Bytes} (h : Utf8Shaped w) : Utf8Char w ↔ ¬ Malformed w :=
  ⟨Utf8Char.not_malformed, h.utf8Char⟩

/-- **Shaped characters are a prefix code**: the lead byte gives the length. -/
theorem utf8Shaped_code : Code Utf8Shaped where
  nonempty w hw := by
    obtain ⟨lead, conts, rfl, -, -⟩ := hw
    exact List.cons_ne_nil lead conts
  front v w s t hv hw h := by
    obtain ⟨lead, conts, rfl, hlead, -⟩ := hv
    obtain ⟨lead', conts', rfl, hlead', -⟩ := hw
    rw [List.cons_append, List.cons_append, List.cons.injEq] at h
    obtain ⟨rfl, h⟩ := h
    have hlen : conts.length + 1 = conts'.length + 1 := by
      rw [← ((announces_iff lead _).mp hlead).1, ← ((announces_iff lead _).mp hlead').1]
    rw [(List.append_inj h (Nat.succ.inj hlen)).1]

/-- A body of shaped characters is UTF-8 if and only if none of them is malformed. -/
theorem wellFormed_iff {chars : List Bytes} (hchars : ∀ w ∈ chars, Utf8Shaped w) :
    WellFormedUtf8 chars.flatten ↔ ¬ HoldsMalformed chars.flatten := by
  refine ⟨fun hwell hbad => ?_, fun hgood => ⟨chars, fun w hw => ?_, rfl⟩⟩
  · obtain ⟨chars', hchars', hflat, w, hw, hmalformed⟩ := hbad
    rw [hflat] at hwell
    have htable := utf8Shaped_code.mem_of_flatten (fun _ => Utf8Char.shaped) hchars' hwell
    exact (utf8Char_iff (hchars' w hw)).mp (htable w hw) hmalformed
  · refine (utf8Char_iff (hchars w hw)).mpr fun hmalformed => hgood ?_
    exact ⟨chars, hchars, rfl, w, hw, hmalformed⟩

/-! ## 3. What the parser accepts -/

section Accepted

variable {lexicalCast : Bytes → Option Int32}

/-- A body of the declared length that ends in a character is a run of characters, and conversely. -/
theorem body_iff_shaped {body : Bytes} (hne : body ≠ []) :
    Body body.length body ↔ ∃ chars : List Bytes, (∀ w ∈ chars, Utf8Shaped w) ∧
      body = chars.flatten := by
  rw [Body, if_neg fun e => hne (List.length_eq_zero_iff.mp e)]
  constructor
  · intro h
    obtain ⟨chars, last, hchars, hlast, hbody, -, -⟩ := h
    exact ⟨chars ++ [last], forall_mem_snoc hchars hlast, by simp [hbody]⟩
  · intro h
    obtain ⟨chars, hchars, rfl⟩ := h
    rcases List.eq_nil_or_concat chars with rfl | ⟨init, last, rfl⟩
    · exact absurd rfl hne
    rw [List.concat_eq_append] at hchars ⊢
    have hlast := hchars last (List.mem_append_right _ List.mem_cons_self)
    have hpos := List.length_pos_iff.mpr (utf8Shaped_code.nonempty last hlast)
    refine ⟨init, last, fun w hw => hchars w (List.mem_append_left _ hw), hlast, by simp, ?_, le_rfl⟩
    rw [List.flatten_append, List.length_append, List.flatten_singleton]
    omega

/-- **A body of the declared length is accepted if and only if it is a run of shaped
    characters.** -/
theorem accepted_iff_shaped {head : RequestHead} {body : Bytes} (hne : body ≠ [])
    (hlen : lengthNat lexicalCast (head.headers.map HeaderLine.pair) = body.length) :
    (∃ p, feed (consume lexicalCast) .fresh (head.text ++ body) = (p, some true)) ↔
      ∃ chars : List Bytes, (∀ w ∈ chars, Utf8Shaped w) ∧ body = chars.flatten := by
  rw [feed_true_iff, ← body_iff_shaped hne]
  constructor
  · intro h
    obtain ⟨head', body', rest, hstream, -, hbody'⟩ := h
    rw [List.append_assoc] at hstream
    obtain ⟨-, hrequest, hbody⟩ := RequestHead.unique hstream
    have hheaders : head.headers.map HeaderLine.pair = head'.headers.map HeaderLine.pair :=
      congrArg Request.headers hrequest
    rw [← hheaders, hlen] at hbody'
    -- the accepted body is as long as the declared length, so nothing stands behind it
    have hge : body.length ≤ body'.length := by
      rw [Body, if_neg fun e => hne (List.length_eq_zero_iff.mp e)] at hbody'
      obtain ⟨-, -, -, -, -, -, hge⟩ := hbody'
      exact hge
    have hrest : rest = [] := by
      have hsum := congrArg List.length hbody
      rw [List.length_append] at hsum
      exact List.length_eq_zero_iff.mp (by omega)
    rw [hrest, List.append_nil] at hbody
    rwa [hbody] at hbody' ⊢
  · intro hbody
    exact ⟨head, body, [], by simp, rfl, by rw [hlen]; exact hbody⟩

/-- On a request whose last Content-Length header holds the length of its body, the parser answers
    `true` exactly where the body is UTF-8. -/
def Utf8Exact (lexicalCast : Bytes → Option Int32) (buffers : List Buffer) (body : Bytes) : Prop :=
  (∃ p, parseBuffers lexicalCast .fresh buffers = (p, some true)) ↔ WellFormedUtf8 body

/-- **The parser accepts exactly UTF-8 if and only if no character of the body is malformed.** -/
theorem utf8Exact_iff (hcast : LexicalCastSpec lexicalCast) {head : RequestHead} {v body : Bytes}
    (hv : lastContentLength (head.headers.map HeaderLine.pair) = some v)
    (hlength : DecimalText v body.length) (hne : body ≠ []) {buffers : List Buffer}
    (hstream : streamOf buffers = head.text ++ body) :
    Utf8Exact lexicalCast buffers body ↔ ¬ HoldsMalformed body := by
  have hlen := lengthNat_decimal hcast hv hlength
  have haccepted : (∃ p, parseBuffers lexicalCast .fresh buffers = (p, some true)) ↔
      ∃ chars : List Bytes, (∀ w ∈ chars, Utf8Shaped w) ∧ body = chars.flatten := by
    rw [← accepted_iff_shaped hne hlen, ← hstream, parseBuffers_flatten]
    rfl
  rw [Utf8Exact, haccepted]
  constructor
  · intro hexact hbad
    obtain ⟨chars, hchars, rfl, hbad⟩ := hbad
    exact (wellFormed_iff hchars).mp (hexact.mp ⟨chars, hchars, rfl⟩) ⟨chars, hchars, rfl, hbad⟩
  · intro hgood
    constructor
    · intro hshaped
      obtain ⟨chars, hchars, rfl⟩ := hshaped
      exact (wellFormed_iff hchars).mpr hgood
    · intro hwell
      obtain ⟨chars, hchars, rfl⟩ := hwell
      exact ⟨chars, fun w hw => (hchars w hw).shaped, rfl⟩

end Accepted

/-! ## 4. Two bodies of two bytes -/

/-- The head of a request whose body has two bytes. -/
def twoByteHead : RequestHead := lengthHead (chr '2') (by decide)

/-- The request with the given body, in one buffer. -/
def twoByteBuffer (a b : UInt8) : Buffer :=
  ⟨twoByteHead.text ++ [a, b], by
    have hhead : twoByteHead.text.length + 2 < 2 ^ 32 := by decide +kernel
    rwa [List.length_append]⟩

theorem streamOf_twoByteBuffer (a b : UInt8) :
    streamOf [twoByteBuffer a b] = twoByteHead.text ++ [a, b] :=
  List.append_nil _

theorem twoByteHead_length :
    lastContentLength (twoByteHead.headers.map HeaderLine.pair) = some (ascii "2") ∧
      DecimalText (ascii "2") 2 :=
  ⟨by decide +kernel, numberText_singleton (by decide), by decide, by omega⟩

theorem utf8Shaped_two {a b : UInt8} (ha : 0xC0 ≤ a.toNat ∧ a.toNat < 0xE0)
    (hb : IsContinuation b) : ∀ w ∈ [[a, b]], Utf8Shaped w := by
  intro w hw
  rw [List.mem_singleton.mp hw]
  exact ⟨a, [b], rfl, .two ha, by simp [hb]⟩

/-- A body that is one character of two bytes. -/
theorem utf8Exact_character : Utf8Exact intOfText [twoByteBuffer 0xC3 0x91] [0xC3, 0x91] := by
  obtain ⟨hv, hlength⟩ := twoByteHead_length
  have hlength' : DecimalText (ascii "2") ([0xC3, 0x91] : Bytes).length := hlength
  refine (utf8Exact_iff (fun _ => rfl) hv hlength' (List.cons_ne_nil _ _)
    (streamOf_twoByteBuffer 0xC3 0x91)).mpr ?_
  have hshaped := utf8Shaped_two (a := 0xC3) (b := 0x91) (by decide) ⟨by decide, by decide⟩
  refine (wellFormed_iff hshaped).mp ⟨[[0xC3, 0x91]], fun w hw => ?_, rfl⟩
  rw [List.mem_singleton.mp hw]
  exact .two (by decide) ⟨by decide, by decide⟩

/-- An overlong encoding of the code point 0 is accepted. -/
theorem utf8Exact_overlong_fails :
    LexicalCastSpec intOfText ∧
      lastContentLength (twoByteHead.headers.map HeaderLine.pair) = some (ascii "2") ∧
      DecimalText (ascii "2") 2 ∧
      streamOf [twoByteBuffer 0xC0 0x80] = twoByteHead.text ++ [0xC0, 0x80] ∧
      ¬ Utf8Exact intOfText [twoByteBuffer 0xC0 0x80] [0xC0, 0x80] := by
  obtain ⟨hv, hlength⟩ := twoByteHead_length
  refine ⟨fun _ => rfl, hv, hlength, streamOf_twoByteBuffer 0xC0 0x80, fun hexact => ?_⟩
  have haccepted : parseBuffers intOfText .fresh [twoByteBuffer 0xC0 0x80] =
      ((parseBuffers intOfText .fresh [twoByteBuffer 0xC0 0x80]).1, some true) := by decide +kernel
  have hshaped := utf8Shaped_two (a := 0xC0) (b := 0x80) (by decide) ⟨by decide, by decide⟩
  refine (wellFormed_iff hshaped).mp (hexact.mp ⟨_, haccepted⟩)
    ⟨[[0xC0, 0x80]], hshaped, rfl, [0xC0, 0x80], List.mem_singleton.mpr rfl, ?_⟩
  exact .overlong (by decide)

end BoostAsioWebServer
