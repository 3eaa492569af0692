/-
  File:      BoostAsioWebServer/Agents/RequestGrammar.lean
  Subject:   THE GRAMMAR OF A REQUEST, stated without the parser.

  A request is a head and a body:

      token+ SP uri SP "HTTP/" digit+ "." digit+ CRLF (token+ ":" SP value CRLF)* CRLF body

  `RequestLine`, `HeaderLine` and `RequestHead` carry the conditions on their parts as fields, so
  a head that exists is well formed. `Body L` is the body of a request whose declared length is
  `L`: empty for `0`, else a run of UTF-8-shaped characters that ends at the first character
  boundary at or past `L` bytes. The declared length is that of the last `Content-Length` header.

  A `Sentence` is a head and a body for its declared length; `RequestHead.request` is the request
  it denotes.
-/
import BoostAsioWebServer.Agents.RequestParserAgent
import Mathlib.Data.FinEnum

namespace BoostAsioWebServer

open ByteText

/-! ## 1. Characters -/

/-- A control character of ASCII. -/
def IsControl (b : UInt8) : Prop := b.toNat ≤ 31 ∨ b.toNat = 127

/-- A byte `0..127` that is neither a control character nor one of the `tspecials`. -/
def IsToken (b : UInt8) : Prop := b.toNat ≤ 127 ∧ ¬ IsControl b ∧ b ∉ tspecials

/-- A byte of the request target. -/
def IsUriByte (b : UInt8) : Prop := ¬ IsControl b ∧ b ≠ chr ' '

instance (b : UInt8) : Decidable (IsControl b) := inferInstanceAs (Decidable (_ ∨ _))
instance (b : UInt8) : Decidable (IsToken b) := inferInstanceAs (Decidable (_ ∧ _))
instance (b : UInt8) : Decidable (IsUriByte b) := inferInstanceAs (Decidable (_ ∧ _))

/-- The number of bytes a lead byte announces: `0xxxxxxx`, `110xxxxx`, `1110xxxx`, `11110xxx`. -/
inductive Announces : UInt8 → Nat → Prop where
  | one {b : UInt8} (h : b.toNat < 0x80) : Announces b 1
  | two {b : UInt8} (h : 0xC0 ≤ b.toNat ∧ b.toNat < 0xE0) : Announces b 2
  | three {b : UInt8} (h : 0xE0 ≤ b.toNat ∧ b.toNat < 0xF0) : Announces b 3
  | four {b : UInt8} (h : 0xF0 ≤ b.toNat ∧ b.toNat < 0xF8) : Announces b 4

/-- A continuation byte `10xxxxxx`. -/
def IsContinuation (b : UInt8) : Prop := 0x80 ≤ b.toNat ∧ b.toNat < 0xC0

/-- A UTF-8-shaped character: a lead byte and as many continuation bytes as it announces. -/
def Utf8Shaped (w : Bytes) : Prop :=
  ∃ lead conts, w = lead :: conts ∧ Announces lead (conts.length + 1) ∧
    ∀ b ∈ conts, IsContinuation b

/-! ## 2. Heads -/

/-- The request line. -/
structure RequestLine where
  method : Bytes
  uri : Bytes
  major : Bytes
  minor : Bytes
  method_ne : method ≠ []
  method_token : ∀ b ∈ method, IsToken b
  uri_byte : ∀ b ∈ uri, IsUriByte b
  major_ne : major ≠ []
  major_digit : ∀ b ∈ major, IsDigit b
  minor_ne : minor ≠ []
  minor_digit : ∀ b ∈ minor, IsDigit b

/-- The text of a request line, its CRLF included. -/
def RequestLine.text (l : RequestLine) : Bytes :=
  l.method ++ ascii " " ++ l.uri ++ ascii " HTTP/" ++ l.major ++ ascii "." ++ l.minor ++ crlf

/-- A header line. -/
structure HeaderLine where
  name : Bytes
  value : Bytes
  name_ne : name ≠ []
  name_token : ∀ b ∈ name, IsToken b
  value_byte : ∀ b ∈ value, ¬ IsControl b

/-- The pair passed to `addHeader`. -/
def HeaderLine.pair (h : HeaderLine) : Bytes × Bytes := (h.name, h.value)

/-- The text of a header line, its CRLF included. -/
def HeaderLine.text (h : HeaderLine) : Bytes := h.name ++ ascii ": " ++ h.value ++ crlf

/-- The request line and the header lines. -/
structure RequestHead where
  line : RequestLine
  headers : List HeaderLine

/-- The text of a head, the blank line included. -/
def RequestHead.text (h : RequestHead) : Bytes :=
  h.line.text ++ h.headers.flatMap HeaderLine.text ++ crlf

/-- The request that a request line, some headers and a content denote. -/
def RequestLine.request (l : RequestLine) (headers : List (Bytes × Bytes)) (content : Bytes) :
    Request where
  method := l.method
  uri := l.uri
  httpVersionMajor := UInt32.ofNat (decimalValue l.major)
  httpVersionMinor := UInt32.ofNat (decimalValue l.minor)
  headers := headers
  content := content

/-- The request a head and a body denote. -/
def RequestHead.request (h : RequestHead) (body : Bytes) : Request :=
  h.line.request (h.headers.map HeaderLine.pair) body

/-! ## 3. Bodies -/

/-- The value of the last `Content-Length` header (name compared without case). -/
def lastContentLength (headers : List (Bytes × Bytes)) : Option Bytes :=
  (headers.reverse.find? fun h => isContentLength h.1).map (·.2)

/-- What `boost::lexical_cast<int>` gives for the last `Content-Length` header; `0` when there is
    none or the cast fails. -/
def declaredLength (lexicalCast : Bytes → Option Int32) (headers : List (Bytes × Bytes)) : Int :=
  match (lastContentLength headers).bind lexicalCast with
  | some n => n.toInt
  | none => 0

/-- The body of a request whose declared length is `L`. -/
def Body (L : Nat) (body : Bytes) : Prop :=
  if L = 0 then body = []
  else ∃ (chars : List Bytes) (last : Bytes), (∀ w ∈ chars, Utf8Shaped w) ∧ Utf8Shaped last ∧
    body = chars.flatten ++ last ∧ chars.flatten.length < L ∧ L ≤ body.length

/-- The text of a head followed by a body; `length` gives the length the head declares. -/
def SentenceOf (length : List (Bytes × Bytes) → Nat) (head : RequestHead) (body s : Bytes) : Prop :=
  s = head.text ++ body ∧ Body (length (head.headers.map HeaderLine.pair)) body

/-- **A request of the grammar.** -/
def Sentence (lexicalCast : Bytes → Option Int32) (s : Bytes) : Prop :=
  ∃ head body, SentenceOf (fun hs => (declaredLength lexicalCast hs).toNat) head body s

/-- A sentence none of whose proper prefixes is one. -/
def ShortestSentence (lexicalCast : Bytes → Option Int32) (s : Bytes) : Prop :=
  Sentence lexicalCast s ∧ ∀ k < s.length, ¬ Sentence lexicalCast (s.take k)

/-- No head at the start of the stream declares a negative length. -/
def NoNegativeLength (lexicalCast : Bytes → Option Int32) (s : Bytes) : Prop :=
  ∀ head : RequestHead, head.text <+: s → ∀ h ∈ head.headers, isContentLength h.name = true →
    ∀ n, lexicalCast h.value = some n → 0 ≤ n.toInt

/-! ## 4. The tests of the source decide the classes of the grammar -/

/-- The test the source makes of a method or header name byte. -/
theorem token_test (b : UInt8) :
    (!isChar (charToInt b) || isCtl (charToInt b) || isTspecial (charToInt b)) = false ↔
      IsToken b := by
  revert b
  decide +kernel

theorem isCtl_test (b : UInt8) : isCtl (charToInt b) = true ↔ IsControl b := by
  revert b
  decide +kernel

theorem isDigit_test (b : UInt8) : isDigit (charToInt b) = true ↔ IsDigit b := by
  revert b
  decide +kernel

theorem isValidUTF8ContinuationByte_test (b : UInt8) :
    isValidUTF8ContinuationByte b = true ↔ 0x80 ≤ b.toNat ∧ b.toNat < 0xC0 := by
  revert b
  decide +kernel

theorem getUTF8Length_eq (b : UInt8) :
    getUTF8Length b =
      if b.toNat < 0x80 then 1
      else if 0xC0 ≤ b.toNat ∧ b.toNat < 0xE0 then 2
      else if 0xE0 ≤ b.toNat ∧ b.toNat < 0xF0 then 3
      else if 0xF0 ≤ b.toNat ∧ b.toNat < 0xF8 then 4
      else 0 := by
  revert b
  decide +kernel

/-- `getUTF8Length` answers the number of bytes a lead byte announces, and `0` for any other. -/
theorem announces_iff (b : UInt8) (n : Nat) : Announces b n ↔ getUTF8Length b = n ∧ n ≠ 0 := by
  rw [getUTF8Length_eq]
  constructor
  · intro h
    cases h with
    | one h => rw [if_pos h]; decide
    | two h => rw [if_neg (by omega), if_pos h]; decide
    | three h => rw [if_neg (by omega), if_neg (by omega), if_pos h]; decide
    | four h => rw [if_neg (by omega), if_neg (by omega), if_neg (by omega), if_pos h]; decide
  · rintro ⟨rfl, hne⟩
    split
    · exact .one ‹_›
    split
    · exact .two ‹_›
    split
    · exact .three ‹_›
    split
    · exact .four ‹_›
    · simp_all

/-- A lead byte announces at most four bytes. -/
theorem Announces.le_four {b : UInt8} {n : Nat} (h : Announces b n) : n ≤ 4 := by
  cases h <;> omega

/-- A digit adds its value to an accumulated version number. -/
theorem digit_toUInt32 {b : UInt8} (h : IsDigit b) :
    b.toUInt32 - (chr '0').toUInt32 = UInt32.ofNat (b.toNat - 48) := by
  revert h
  revert b
  decide +kernel

end BoostAsioWebServer
