/-
  File:      BoostAsioWebServer/Agents/RequestParserReads.lean
  Subject:   WHAT THE PARSER HAS READ: the invariant of `consume`.

  `Reads s p` says that `p` is the parse a fresh agent reaches on the bytes `s` before any
  verdict. There is one rule for each state of the parser (the literal `" HTTP/"` and the later
  bytes of a character have one rule for the states they run through), and each rule gives the
  text read so far in the vocabulary of the grammar.

  * `reads_step`: one byte either keeps the invariant, or completes a sentence and the parse holds
    its request, or is refused;
  * `reads_of_feed`: the invariant holds after every silent input;
  * `sentence_of_feed`: an accepted input starts with a sentence, and the parse holds its request.
-/
import BoostAsioWebServer.Agents.RequestGrammar
import Mathlib.Algebra.Ring.GrindInstances

namespace BoostAsioWebServer

open ByteText Feed

/-! ## 1. Parts of a text -/

/-- A method or a header name. -/
def TokenText (t : Bytes) : Prop := t ≠ [] ∧ ∀ b ∈ t, IsToken b

/-- The text of a version number. -/
def NumberText (t : Bytes) : Prop := t ≠ [] ∧ ∀ b ∈ t, IsDigit b

theorem forall_mem_snoc {α : Type*} {P : α → Prop} {t : List α} {c : α} (ht : ∀ b ∈ t, P b)
    (hc : P c) : ∀ b ∈ t ++ [c], P b := by
  intro b hb
  rcases List.mem_append.mp hb with hb | hb
  · exact ht b hb
  · exact List.mem_singleton.mp hb ▸ hc

theorem tokenText_singleton {c : UInt8} (h : IsToken c) : TokenText [c] :=
  ⟨List.cons_ne_nil c [], fun _ hb => List.mem_singleton.mp hb ▸ h⟩

theorem TokenText.snoc {t : Bytes} {c : UInt8} (ht : TokenText t) (h : IsToken c) :
    TokenText (t ++ [c]) :=
  ⟨by simp, forall_mem_snoc ht.2 h⟩

theorem numberText_singleton {c : UInt8} (h : IsDigit c) : NumberText [c] :=
  ⟨List.cons_ne_nil c [], fun _ hb => List.mem_singleton.mp hb ▸ h⟩

theorem NumberText.snoc {t : Bytes} {c : UInt8} (ht : NumberText t) (h : IsDigit c) :
    NumberText (t ++ [c]) :=
  ⟨by simp, forall_mem_snoc ht.2 h⟩

/-- The test the source refuses a method or header name byte with. -/
theorem token_refused {b : UInt8} (h : ¬ IsToken b) :
    (!isChar (charToInt b) || isCtl (charToInt b) || isTspecial (charToInt b)) = true := by
  rw [← Bool.not_eq_false]
  exact fun e => h ((token_test b).mp e)

theorem isCtl_refused {b : UInt8} (h : ¬ IsControl b) : isCtl (charToInt b) = false := by
  rw [← Bool.not_eq_true]
  exact fun e => h ((isCtl_test b).mp e)

theorem isDigit_refused {b : UInt8} (h : ¬ IsDigit b) : isDigit (charToInt b) = false := by
  rw [← Bool.not_eq_true]
  exact fun e => h ((isDigit_test b).mp e)

/-- The version number after one more digit. -/
theorem versionNumber_snoc (t : Bytes) {c : UInt8} (h : IsDigit c) :
    UInt32.ofNat (decimalValue t) * 10 + c.toUInt32 - (chr '0').toUInt32 =
      UInt32.ofNat (decimalValue (t ++ [c])) := by
  have hc := digit_toUInt32 h
  rw [decimalValue_snoc, UInt32.ofNat_add, UInt32.ofNat_mul, ← hc]
  grind

/-- The version number after its first digit. -/
theorem versionNumber_singleton {c : UInt8} (h : IsDigit c) :
    (0 : UInt32) * 10 + c.toUInt32 - (chr '0').toUInt32 = UInt32.ofNat (decimalValue [c]) :=
  versionNumber_snoc [] h

/-- The declared length as the agent keeps it: an `int` converted to `unsigned int`. -/
def lengthField (lexicalCast : Bytes → Option Int32) (headers : List (Bytes × Bytes)) : UInt32 :=
  match (lastContentLength headers).bind lexicalCast with
  | some n => n.toUInt32
  | none => 0

theorem lastContentLength_snoc (headers : List (Bytes × Bytes)) (h : Bytes × Bytes) :
    lastContentLength (headers ++ [h]) =
      if isContentLength h.1 then some h.2 else lastContentLength headers := by
  unfold lastContentLength
  rw [List.reverse_append, List.reverse_singleton, List.singleton_append, List.find?_cons]
  cases isContentLength h.1 <;> rfl

theorem lengthField_snoc (lexicalCast : Bytes → Option Int32) (headers : List (Bytes × Bytes))
    (h : Bytes × Bytes) :
    contentLengthAfter lexicalCast h (lengthField lexicalCast headers) =
      lengthField lexicalCast (headers ++ [h]) := by
  unfold contentLengthAfter lengthField
  rw [lastContentLength_snoc]
  by_cases hc : isContentLength h.1 = true
  · rw [if_pos hc, if_pos hc]
    rfl
  · rw [if_neg hc, if_neg hc]

/-! ## 2. The invariant -/

/-- The states that read the literal before the version number, with what they have read. -/
def versionLiterals : List (ParsingState × Bytes) :=
  [(.httpVersionH, ascii " "), (.httpVersionT1, ascii " H"), (.httpVersionT2, ascii " HT"),
    (.httpVersionP, ascii " HTT"), (.httpVersionSlash, ascii " HTTP"),
    (.httpVersionMajorStart, ascii " HTTP/")]

/-- The state that waits for the continuation byte behind `n` others. -/
def continuationState : Nat → ParsingState
  | 0 => .expectingContentChar2
  | 1 => .expectingContentChar3
  | _ => .expectingContentChar4

/-- The request line without its line end. -/
def lineText (m u M N : Bytes) : Bytes :=
  m ++ ascii " " ++ u ++ ascii " HTTP/" ++ M ++ ascii "." ++ N

/-- The request line and the header lines. -/
def linesText (l : RequestLine) (hs : List HeaderLine) : Bytes :=
  l.text ++ hs.flatMap HeaderLine.text

theorem RequestLine.text_eq (l : RequestLine) :
    l.text = lineText l.method l.uri l.major l.minor ++ crlf := rfl

theorem RequestHead.text_eq (h : RequestHead) : h.text = linesText h.line h.headers ++ crlf := rfl

/-- The text of a head, cut at the line feed of its blank line. -/
theorem RequestHead.text_split (head : RequestHead) :
    head.text = linesText head.line head.headers ++ [CR] ++ [LF] := by
  simp [RequestHead.text_eq, crlf]

theorem linesText_snoc (l : RequestLine) (hs : List HeaderLine) (h : HeaderLine) :
    linesText l (hs ++ [h]) = linesText l hs ++ h.text := by
  simp [linesText]

section Reads

variable (lexicalCast : Bytes → Option Int32)

/-- The length field after a list of header lines. -/
abbrev fieldOf (hs : List HeaderLine) : UInt32 := lengthField lexicalCast (hs.map HeaderLine.pair)

/-- **The invariant**: the bytes read, and the parse reached on them before any verdict. -/
inductive Reads : Bytes → Parse → Prop where
  | methodStart : Reads [] .fresh
  | method {m : Bytes} (hm : TokenText m) :
      Reads m ⟨⟨.method, ([], []), 0, 0⟩, { method := m }⟩
  | uri {m u : Bytes} (hm : TokenText m) (hu : ∀ b ∈ u, IsUriByte b) :
      Reads (m ++ ascii " " ++ u) ⟨⟨.uri, ([], []), 0, 0⟩, { method := m, uri := u }⟩
  | literal {m u lit : Bytes} {state : ParsingState} (hm : TokenText m)
      (hu : ∀ b ∈ u, IsUriByte b) (hlit : (state, lit) ∈ versionLiterals) :
      Reads (m ++ ascii " " ++ u ++ lit) ⟨⟨state, ([], []), 0, 0⟩, { method := m, uri := u }⟩
  | major {m u M : Bytes} (hm : TokenText m) (hu : ∀ b ∈ u, IsUriByte b) (hM : NumberText M) :
      Reads (m ++ ascii " " ++ u ++ ascii " HTTP/" ++ M)
        ⟨⟨.httpVersionMajor, ([], []), 0, 0⟩,
          { method := m, uri := u, httpVersionMajor := .ofNat (decimalValue M) }⟩
  | minorStart {m u M : Bytes} (hm : TokenText m) (hu : ∀ b ∈ u, IsUriByte b)
      (hM : NumberText M) :
      Reads (m ++ ascii " " ++ u ++ ascii " HTTP/" ++ M ++ ascii ".")
        ⟨⟨.httpVersionMinorStart, ([], []), 0, 0⟩,
          { method := m, uri := u, httpVersionMajor := .ofNat (decimalValue M) }⟩
  | minor {m u M N : Bytes} (hm : TokenText m) (hu : ∀ b ∈ u, IsUriByte b) (hM : NumberText M)
      (hN : NumberText N) :
      Reads (lineText m u M N)
        ⟨⟨.httpVersionMinor, ([], []), 0, 0⟩,
          { method := m, uri := u, httpVersionMajor := .ofNat (decimalValue M),
            httpVersionMinor := .ofNat (decimalValue N) }⟩
  | newline1 (l : RequestLine) :
      Reads (lineText l.method l.uri l.major l.minor ++ [CR])
        ⟨⟨.expectingNewline1, ([], []), 0, 0⟩, l.request [] []⟩
  | headerLineStart (l : RequestLine) (hs : List HeaderLine) :
      Reads (linesText l hs)
        ⟨⟨.headerLineStart, ([], []), fieldOf lexicalCast hs, 0⟩,
          l.request (hs.map HeaderLine.pair) []⟩
  | headerName (l : RequestLine) (hs : List HeaderLine) {n : Bytes} (hn : TokenText n) :
      Reads (linesText l hs ++ n)
        ⟨⟨.headerName, (n, []), fieldOf lexicalCast hs, 0⟩,
          l.request (hs.map HeaderLine.pair) []⟩
  | space (l : RequestLine) (hs : List HeaderLine) {n : Bytes} (hn : TokenText n) :
      Reads (linesText l hs ++ n ++ ascii ":")
        ⟨⟨.spaceBeforeHeaderValue, (n, []), fieldOf lexicalCast hs, 0⟩,
          l.request (hs.map HeaderLine.pair) []⟩
  | headerValue (l : RequestLine) (hs : List HeaderLine) {n v : Bytes} (hn : TokenText n)
      (hv : ∀ b ∈ v, ¬ IsControl b) :
      Reads (linesText l hs ++ n ++ ascii ": " ++ v)
        ⟨⟨.headerValue, (n, v), fieldOf lexicalCast hs, 0⟩,
          l.request (hs.map HeaderLine.pair) []⟩
  | newline2 (l : RequestLine) (hs : List HeaderLine) (h : HeaderLine) :
      Reads (linesText l hs ++ h.name ++ ascii ": " ++ h.value ++ [CR])
        ⟨⟨.expectingNewline2, ([], []), fieldOf lexicalCast (hs ++ [h]), 0⟩,
          l.request ((hs ++ [h]).map HeaderLine.pair) []⟩
  | newline3 (l : RequestLine) (hs : List HeaderLine) :
      Reads (linesText l hs ++ [CR])
        ⟨⟨.expectingNewline3, ([], []), fieldOf lexicalCast hs, 0⟩,
          l.request (hs.map HeaderLine.pair) []⟩
  | content (head : RequestHead) {chars : List Bytes} {size : Nat}
      (hchars : ∀ w ∈ chars, Utf8Shaped w)
      (hlt : chars.flatten.length < (fieldOf lexicalCast head.headers).toNat) :
      Reads (head.text ++ chars.flatten)
        ⟨⟨.expectingContentChar1, ([], []), fieldOf lexicalCast head.headers, size⟩,
          head.request chars.flatten⟩
  | continuation (head : RequestHead) {chars : List Bytes} {lead : UInt8} {conts : Bytes}
      {size : Nat} (hchars : ∀ w ∈ chars, Utf8Shaped w)
      (hlt : chars.flatten.length < (fieldOf lexicalCast head.headers).toNat)
      (hlead : Announces lead size) (hconts : ∀ b ∈ conts, IsContinuation b)
      (hsize : conts.length + 1 < size) :
      Reads (head.text ++ (chars.flatten ++ lead :: conts))
        ⟨⟨continuationState conts.length, ([], []), fieldOf lexicalCast head.headers, size⟩,
          head.request (chars.flatten ++ lead :: conts)⟩

/-- The length a header list declares, as the agent compares with it. -/
abbrev lengthNat (headers : List (Bytes × Bytes)) : Nat := (lengthField lexicalCast headers).toNat

/-- The comparison at the blank line asks whether a length is declared. -/
theorem fieldOf_pos_iff (hs : List HeaderLine) :
    fieldOf lexicalCast hs > 0 ↔ lengthNat lexicalCast (hs.map HeaderLine.pair) ≠ 0 := by
  rw [gt_iff_lt, UInt32.lt_iff_toNat_lt]
  exact Nat.pos_iff_ne_zero

/-- What one byte does to a parse: it is read on, it completes a sentence whose request the parse
    then holds, or it is refused. -/
inductive StepResult (s : Bytes) : Parse × Option Bool → Prop where
  | reading {p : Parse} (h : Reads lexicalCast s p) : StepResult s (p, none)
  | accepted {p : Parse} (head : RequestHead) (body : Bytes)
      (hs : SentenceOf (lengthNat lexicalCast) head body s) (hr : p.request = head.request body) :
      StepResult s (p, some true)
  | refused {p : Parse} : StepResult s (p, some false)

variable {lexicalCast}

theorem StepResult.of_eq {s s' : Bytes} {p p' : Parse} (h : Reads lexicalCast s' p')
    (hs : s' = s) (hp : p' = p) : StepResult lexicalCast s (p, none) := by
  subst hs hp
  exact .reading h

/-- A state that waits for one byte `x` reads it on, and refuses every other byte. -/
theorem StepResult.of_expected {s : Bytes} {p p' : Parse} {x : UInt8}
    (hstep : ∀ c, consume lexicalCast p c = if c = x then (p', none) else (p, some false))
    (h : Reads lexicalCast (s ++ [x]) p') (c : UInt8) :
    StepResult lexicalCast (s ++ [c]) (consume lexicalCast p c) := by
  rw [hstep]
  by_cases hc : c = x
  · rw [if_pos hc, hc]
    exact .reading h
  · rw [if_neg hc]
    exact .refused

/-! ## 3. One byte -/

theorem methodStart_step (c : UInt8) :
    StepResult lexicalCast [c] (consume lexicalCast .fresh c) := by
  by_cases hc : IsToken c
  · have ht := (token_test c).mpr hc
    simp only [consume, Parse.fresh, RequestParserAgent.fresh, ht, Bool.false_eq_true, if_false]
    exact .of_eq (.method (tokenText_singleton hc)) rfl rfl
  · have ht := token_refused hc
    simp only [consume, Parse.fresh, RequestParserAgent.fresh, ht, if_true]
    exact .refused

theorem method_step {m : Bytes} (hm : TokenText m) (c : UInt8) :
    StepResult lexicalCast (m ++ [c])
      (consume lexicalCast ⟨⟨.method, ([], []), 0, 0⟩, { method := m }⟩ c) := by
  by_cases hsp : c = chr ' '
  · subst hsp
    exact .of_eq (.uri hm (u := []) (by simp)) (by simp [ascii]) rfl
  by_cases hc : IsToken c
  · have ht := (token_test c).mpr hc
    simp only [consume, hsp, ht, Bool.false_eq_true, if_false]
    exact .reading (.method (hm.snoc hc))
  · have ht := token_refused hc
    simp only [consume, hsp, ht, if_false, if_true]
    exact .refused

theorem uri_step {m u : Bytes} (hm : TokenText m) (hu : ∀ b ∈ u, IsUriByte b) (c : UInt8) :
    StepResult lexicalCast (m ++ ascii " " ++ u ++ [c])
      (consume lexicalCast ⟨⟨.uri, ([], []), 0, 0⟩, { method := m, uri := u }⟩ c) := by
  by_cases hsp : c = chr ' '
  · subst hsp
    exact .reading (.literal hm hu (by simp [versionLiterals, ascii]))
  by_cases hc : IsControl c
  · have ht := (isCtl_test c).mpr hc
    simp only [consume, hsp, ht, if_false, if_true]
    exact .refused
  · have ht := isCtl_refused hc
    simp only [consume, hsp, ht, Bool.false_eq_true, if_false]
    exact .of_eq (.uri hm (forall_mem_snoc hu ⟨hc, hsp⟩)) (by simp) rfl

theorem literal_step {m u lit : Bytes} {state : ParsingState} (hm : TokenText m)
    (hu : ∀ b ∈ u, IsUriByte b) (hlit : (state, lit) ∈ versionLiterals) (c : UInt8) :
    StepResult lexicalCast (m ++ ascii " " ++ u ++ lit ++ [c])
      (consume lexicalCast ⟨⟨state, ([], []), 0, 0⟩, { method := m, uri := u }⟩ c) := by
  have hnext (state' : ParsingState) (lit' : Bytes) (h' : (state', lit') ∈ versionLiterals)
      (x : UInt8) (e : lit ++ [x] = lit') :
      Reads lexicalCast (m ++ ascii " " ++ u ++ lit ++ [x])
        ⟨⟨state', ([], []), 0, 0⟩, { method := m, uri := u }⟩ := by
    rw [List.append_assoc _ lit, e]
    exact .literal hm hu h'
  simp only [versionLiterals, List.mem_cons, Prod.mk.injEq, List.not_mem_nil, or_false] at hlit
  rcases hlit with ⟨rfl, rfl⟩ | ⟨rfl, rfl⟩ | ⟨rfl, rfl⟩ | ⟨rfl, rfl⟩ | ⟨rfl, rfl⟩ | ⟨rfl, rfl⟩
  · have h := hnext .httpVersionT1 (ascii " H") (by simp [versionLiterals]) (chr 'H') rfl
    exact .of_expected (fun _ => rfl) h c
  · have h := hnext .httpVersionT2 (ascii " HT") (by simp [versionLiterals]) (chr 'T') rfl
    exact .of_expected (fun _ => rfl) h c
  · have h := hnext .httpVersionP (ascii " HTT") (by simp [versionLiterals]) (chr 'T') rfl
    exact .of_expected (fun _ => rfl) h c
  · have h := hnext .httpVersionSlash (ascii " HTTP") (by simp [versionLiterals]) (chr 'P') rfl
    exact .of_expected (fun _ => rfl) h c
  · have h := hnext .httpVersionMajorStart (ascii " HTTP/") (by simp [versionLiterals]) (chr '/') rfl
    exact .of_expected (fun _ => rfl) h c
  · by_cases hc : IsDigit c
    · have ht := (isDigit_test c).mpr hc
      simp only [consume, ht, if_true]
      exact .of_eq (.major hm hu (numberText_singleton hc)) rfl
        (by rw [versionNumber_singleton hc])
    · have ht := isDigit_refused hc
      simp only [consume, ht, Bool.false_eq_true, if_false]
      exact .refused

theorem major_step {m u M : Bytes} (hm : TokenText m) (hu : ∀ b ∈ u, IsUriByte b)
    (hM : NumberText M) (c : UInt8) :
    StepResult lexicalCast (m ++ ascii " " ++ u ++ ascii " HTTP/" ++ M ++ [c])
      (consume lexicalCast ⟨⟨.httpVersionMajor, ([], []), 0, 0⟩,
        { method := m, uri := u, httpVersionMajor := .ofNat (decimalValue M) }⟩ c) := by
  by_cases hdot : c = chr '.'
  · subst hdot
    exact .reading (.minorStart hm hu hM)
  by_cases hc : IsDigit c
  · have ht := (isDigit_test c).mpr hc
    have hv := versionNumber_snoc M hc
    simp only [consume, hdot, ht, if_false, if_true]
    exact .of_eq (.major hm hu (hM.snoc hc)) (by simp) (by rw [hv])
  · have ht := isDigit_refused hc
    simp only [consume, hdot, ht, Bool.false_eq_true, if_false]
    exact .refused

theorem minorStart_step {m u M : Bytes} (hm : TokenText m) (hu : ∀ b ∈ u, IsUriByte b)
    (hM : NumberText M) (c : UInt8) :
    StepResult lexicalCast (m ++ ascii " " ++ u ++ ascii " HTTP/" ++ M ++ ascii "." ++ [c])
      (consume lexicalCast ⟨⟨.httpVersionMinorStart, ([], []), 0, 0⟩,
        { method := m, uri := u, httpVersionMajor := .ofNat (decimalValue M) }⟩ c) := by
  by_cases hc : IsDigit c
  · have ht := (isDigit_test c).mpr hc
    simp only [consume, ht, if_true]
    exact .of_eq (.minor hm hu hM (numberText_singleton hc)) rfl
      (by rw [versionNumber_singleton hc])
  · have ht := isDigit_refused hc
    simp only [consume, ht, Bool.false_eq_true, if_false]
    exact .refused

theorem minor_step {m u M N : Bytes} (hm : TokenText m) (hu : ∀ b ∈ u, IsUriByte b)
    (hM : NumberText M) (hN : NumberText N) (c : UInt8) :
    StepResult lexicalCast (lineText m u M N ++ [c])
      (consume lexicalCast ⟨⟨.httpVersionMinor, ([], []), 0, 0⟩,
        { method := m, uri := u, httpVersionMajor := .ofNat (decimalValue M),
          httpVersionMinor := .ofNat (decimalValue N) }⟩ c) := by
  by_cases hcr : c = CR
  · subst hcr
    let l : RequestLine := ⟨m, u, M, N, hm.1, hm.2, hu, hM.1, hM.2, hN.1, hN.2⟩
    exact .reading (.newline1 l)
  by_cases hc : IsDigit c
  · have ht := (isDigit_test c).mpr hc
    have hv := versionNumber_snoc N hc
    simp only [consume, hcr, ht, if_false, if_true]
    exact .of_eq (.minor hm hu hM (hN.snoc hc)) (by simp [lineText]) (by rw [hv])
  · have ht := isDigit_refused hc
    simp only [consume, hcr, ht, Bool.false_eq_true, if_false]
    exact .refused

theorem newline1_step (l : RequestLine) (c : UInt8) :
    StepResult lexicalCast (lineText l.method l.uri l.major l.minor ++ [CR] ++ [c])
      (consume lexicalCast ⟨⟨.expectingNewline1, ([], []), 0, 0⟩, l.request [] []⟩ c) := by
  have h : linesText l [] = lineText l.method l.uri l.major l.minor ++ [CR] ++ [LF] := by
    simp [linesText, RequestLine.text_eq, crlf]
  exact .of_expected (fun _ => rfl) (h ▸ .headerLineStart l []) c

theorem headerLineStart_step (l : RequestLine) (hs : List HeaderLine) (c : UInt8) :
    StepResult lexicalCast (linesText l hs ++ [c])
      (consume lexicalCast ⟨⟨.headerLineStart, ([], []), fieldOf lexicalCast hs, 0⟩,
        l.request (hs.map HeaderLine.pair) []⟩ c) := by
  by_cases hcr : c = CR
  · subst hcr
    exact .reading (.newline3 l hs)
  by_cases hc : IsToken c
  · have ht := (token_test c).mpr hc
    simp only [consume, hcr, ht, Bool.false_eq_true, if_false]
    exact .reading (.headerName l hs (tokenText_singleton hc))
  · have ht := token_refused hc
    simp only [consume, hcr, ht, if_false, if_true]
    exact .refused

theorem headerName_step (l : RequestLine) (hs : List HeaderLine) {n : Bytes} (hn : TokenText n)
    (c : UInt8) :
    StepResult lexicalCast (linesText l hs ++ n ++ [c])
      (consume lexicalCast ⟨⟨.headerName, (n, []), fieldOf lexicalCast hs, 0⟩,
        l.request (hs.map HeaderLine.pair) []⟩ c) := by
  by_cases hcolon : c = chr ':'
  · subst hcolon
    exact .reading (.space l hs hn)
  by_cases hc : IsToken c
  · have ht := (token_test c).mpr hc
    simp only [consume, hcolon, ht, Bool.false_eq_true, if_false]
    exact .of_eq (.headerName l hs (hn.snoc hc)) (by simp) rfl
  · have ht := token_refused hc
    simp only [consume, hcolon, ht, if_false, if_true]
    exact .refused

theorem space_step (l : RequestLine) (hs : List HeaderLine) {n : Bytes} (hn : TokenText n)
    (c : UInt8) :
    StepResult lexicalCast (linesText l hs ++ n ++ ascii ":" ++ [c])
      (consume lexicalCast ⟨⟨.spaceBeforeHeaderValue, (n, []), fieldOf lexicalCast hs, 0⟩,
        l.request (hs.map HeaderLine.pair) []⟩ c) := by
  have h : linesText l hs ++ n ++ ascii ": " ++ [] =
      linesText l hs ++ n ++ ascii ":" ++ [chr ' '] := by
    simp [ascii]
  have hv : ∀ b ∈ ([] : Bytes), ¬ IsControl b := fun _ hb => absurd hb List.not_mem_nil
  exact .of_expected (fun _ => rfl) (h ▸ .headerValue l hs hn hv) c

theorem headerValue_step (l : RequestLine) (hs : List HeaderLine) {n v : Bytes} (hn : TokenText n)
    (hv : ∀ b ∈ v, ¬ IsControl b) (c : UInt8) :
    StepResult lexicalCast (linesText l hs ++ n ++ ascii ": " ++ v ++ [c])
      (consume lexicalCast ⟨⟨.headerValue, (n, v), fieldOf lexicalCast hs, 0⟩,
        l.request (hs.map HeaderLine.pair) []⟩ c) := by
  by_cases hcr : c = CR
  · subst hcr
    let h : HeaderLine := ⟨n, v, hn.1, hn.2, hv⟩
    have hfield := lengthField_snoc lexicalCast (hs.map HeaderLine.pair) h.pair
    have hmap : (hs ++ [h]).map HeaderLine.pair = hs.map HeaderLine.pair ++ [h.pair] := by simp
    simp only [consume, if_true]
    refine .of_eq (.newline2 l hs h) rfl ?_
    rw [fieldOf, hmap, ← hfield]
    rfl
  by_cases hc : IsControl c
  · have ht := (isCtl_test c).mpr hc
    simp only [consume, hcr, ht, if_false, if_true]
    exact .refused
  · have ht := isCtl_refused hc
    simp only [consume, hcr, ht, Bool.false_eq_true, if_false]
    exact .of_eq (.headerValue l hs hn (forall_mem_snoc hv hc)) (by simp) rfl

theorem newline2_step (l : RequestLine) (hs : List HeaderLine) (h : HeaderLine) (c : UInt8) :
    StepResult lexicalCast (linesText l hs ++ h.name ++ ascii ": " ++ h.value ++ [CR] ++ [c])
      (consume lexicalCast ⟨⟨.expectingNewline2, ([], []), fieldOf lexicalCast (hs ++ [h]), 0⟩,
        l.request ((hs ++ [h]).map HeaderLine.pair) []⟩ c) := by
  have h' : linesText l (hs ++ [h]) =
      linesText l hs ++ h.name ++ ascii ": " ++ h.value ++ [CR] ++ [LF] := by
    simp [linesText_snoc, HeaderLine.text, crlf]
  exact .of_expected (fun _ => rfl) (h' ▸ .headerLineStart l (hs ++ [h])) c

/-! ## 4. One byte of the body -/

/-- The line feed of the blank line, where a length is declared: the body follows. -/
theorem consume_blankLine_body {length : UInt32} (h : length > 0) (size : Nat) (req : Request) :
    consume lexicalCast ⟨⟨.expectingNewline3, ([], []), length, size⟩, req⟩ LF =
      (⟨⟨.expectingContentChar1, ([], []), length, size⟩, req⟩, none) := by
  simp only [consume, if_true, h]

/-- The line feed of the blank line, where no length is declared: the request is complete. -/
theorem consume_blankLine_empty {length : UInt32} (h : ¬ length > 0) (size : Nat) (req : Request) :
    consume lexicalCast ⟨⟨.expectingNewline3, ([], []), length, size⟩, req⟩ LF =
      (⟨⟨.expectingNewline3, ([], []), length, size⟩, req⟩, some true) := by
  simp only [consume, if_true, h, if_false]

theorem newline3_step (l : RequestLine) (hs : List HeaderLine) (c : UInt8) :
    StepResult lexicalCast (linesText l hs ++ [CR] ++ [c])
      (consume lexicalCast ⟨⟨.expectingNewline3, ([], []), fieldOf lexicalCast hs, 0⟩,
        l.request (hs.map HeaderLine.pair) []⟩ c) := by
  by_cases hc : c = LF
  · subst hc
    let head : RequestHead := ⟨l, hs⟩
    have htext : head.text = linesText l hs ++ [CR] ++ [LF] := head.text_split
    by_cases hL : fieldOf lexicalCast hs > 0
    · have hlt : ([] : List Bytes).flatten.length < (fieldOf lexicalCast head.headers).toNat := by
        simpa using UInt32.lt_iff_toNat_lt.mp hL
      have hnil : ∀ w ∈ ([] : List Bytes), Utf8Shaped w := fun _ hw => absurd hw List.not_mem_nil
      rw [consume_blankLine_body hL]
      exact .of_eq (.content head hnil hlt) (by simp [htext]) rfl
    · have h0 : lengthNat lexicalCast (head.headers.map HeaderLine.pair) = 0 :=
        not_not.mp (mt (fieldOf_pos_iff lexicalCast hs).mpr hL)
      rw [consume_blankLine_empty hL]
      refine .accepted head [] ⟨by simp [htext], ?_⟩ rfl
      rw [h0]
      simp [Body]
  · simp only [consume, hc, if_false]
    exact .refused

/-- A completed character ends the body at or past the declared length, and goes on before it. -/
theorem character_done (head : RequestHead) {chars : List Bytes} {w s : Bytes} {p : Parse}
    {size : Nat} (hchars : ∀ w ∈ chars, Utf8Shaped w)
    (hlt : chars.flatten.length < (fieldOf lexicalCast head.headers).toNat) (hw : Utf8Shaped w)
    (hs : s = head.text ++ (chars.flatten ++ w))
    (hp : p = ⟨⟨.expectingContentChar1, ([], []), fieldOf lexicalCast head.headers, size⟩,
      head.request (chars.flatten ++ w)⟩) :
    ∀ q : Parse, q.request = p.request →
      StepResult lexicalCast s
        (if (chars.flatten ++ w).length ≥ (fieldOf lexicalCast head.headers).toNat then
          (q, some true) else (p, none)) := by
  intro q hq
  by_cases hge : (chars.flatten ++ w).length ≥ (fieldOf lexicalCast head.headers).toNat
  · rw [if_pos hge]
    refine .accepted head (chars.flatten ++ w) ⟨hs, ?_⟩ (by rw [hq, hp])
    have hne : lengthNat lexicalCast (head.headers.map HeaderLine.pair) ≠ 0 :=
      Nat.ne_of_gt (Nat.zero_lt_of_lt hlt)
    rw [Body, if_neg hne]
    exact ⟨chars, w, hchars, hw, rfl, hlt, hge⟩
  · rw [if_neg hge]
    have hflat : (chars ++ [w]).flatten = chars.flatten ++ w := by simp
    have hread : Reads lexicalCast (head.text ++ (chars ++ [w]).flatten)
        ⟨⟨.expectingContentChar1, ([], []), fieldOf lexicalCast head.headers, size⟩,
          head.request (chars ++ [w]).flatten⟩ :=
      .content head (forall_mem_snoc hchars hw) (by rw [hflat]; omega)
    rw [hflat] at hread
    exact .of_eq hread hs.symm hp.symm

theorem content_step (head : RequestHead) {chars : List Bytes} {size : Nat}
    (hchars : ∀ w ∈ chars, Utf8Shaped w)
    (hlt : chars.flatten.length < (fieldOf lexicalCast head.headers).toNat) (c : UInt8) :
    StepResult lexicalCast (head.text ++ chars.flatten ++ [c])
      (consume lexicalCast
        ⟨⟨.expectingContentChar1, ([], []), fieldOf lexicalCast head.headers, size⟩,
          head.request chars.flatten⟩ c) := by
  by_cases h0 : getUTF8Length c > 0
  · have hann : Announces c (getUTF8Length c) := (announces_iff c _).mpr ⟨rfl, by omega⟩
    by_cases h1 : getUTF8Length c = 1
    · rw [h1] at hann
      have hw : Utf8Shaped [c] := ⟨c, [], rfl, hann, by simp⟩
      simp only [consume, h1, Nat.one_pos, if_true]
      exact character_done head hchars hlt hw (by simp) rfl _ rfl
    · have hnil : ∀ b ∈ ([] : Bytes), IsContinuation b := fun _ hb => absurd hb List.not_mem_nil
      have hsize : ([] : Bytes).length + 1 < getUTF8Length c := by
        rw [List.length_nil]
        omega
      simp only [consume, h0, h1, if_true, if_false]
      exact .of_eq (.continuation head hchars hlt hann hnil hsize) (by simp) rfl
  · simp only [consume, h0, if_false]
    exact .refused

variable (lexicalCast) in
/-- A continuation byte behind `k` others: the last one of the character ends the body at or past
    the declared length, and every other is stored. -/
theorem consume_continuation {k size : Nat} (len : UInt32) (req : Request) (hk : k + 1 < size)
    (hsize : size ≤ 4) {c : UInt8} (hc : isValidUTF8ContinuationByte c = true) :
    ∃ q : Parse, q.request = { req with content := req.content ++ [c] } ∧
      consume lexicalCast ⟨⟨continuationState k, ([], []), len, size⟩, req⟩ c =
        if size = k + 2 then
          if (req.content ++ [c]).length ≥ len.toNat then (q, some true)
          else (⟨⟨.expectingContentChar1, ([], []), len, size⟩,
            { req with content := req.content ++ [c] }⟩, none)
        else (⟨⟨continuationState (k + 1), ([], []), len, size⟩,
          { req with content := req.content ++ [c] }⟩, none) := by
  rcases k with _ | _ | _ | k
  · refine ⟨⟨⟨.expectingContentChar2, ([], []), len, size⟩, _⟩, rfl, ?_⟩
    simp only [continuationState, consume, hc, if_true]
  · refine ⟨⟨⟨.expectingContentChar3, ([], []), len, size⟩, _⟩, rfl, ?_⟩
    simp only [continuationState, consume, hc, if_true]
  · have h4 : size = 2 + 2 := by omega
    refine ⟨⟨⟨.methodStart, ([], []), len, size⟩, _⟩, rfl, ?_⟩
    simp only [continuationState, consume, hc, if_true, h4]
  · omega

theorem consume_continuation_refused {k size : Nat} (len : UInt32) (req : Request) {c : UInt8}
    (hc : ¬ isValidUTF8ContinuationByte c = true) :
    consume lexicalCast ⟨⟨continuationState k, ([], []), len, size⟩, req⟩ c =
      (⟨⟨continuationState k, ([], []), len, size⟩, req⟩, some false) := by
  rcases k with _ | _ | k
  all_goals simp only [continuationState, consume, hc, if_false, Bool.false_eq_true]

theorem continuation_step (head : RequestHead) {chars : List Bytes} {lead : UInt8} {conts : Bytes}
    {size : Nat} (hchars : ∀ w ∈ chars, Utf8Shaped w)
    (hlt : chars.flatten.length < (fieldOf lexicalCast head.headers).toNat)
    (hlead : Announces lead size) (hconts : ∀ b ∈ conts, IsContinuation b)
    (hsize : conts.length + 1 < size) (c : UInt8) :
    StepResult lexicalCast (head.text ++ (chars.flatten ++ lead :: conts) ++ [c])
      (consume lexicalCast
        ⟨⟨continuationState conts.length, ([], []), fieldOf lexicalCast head.headers, size⟩,
          head.request (chars.flatten ++ lead :: conts)⟩ c) := by
  by_cases hc : isValidUTF8ContinuationByte c = true
  · have hcont : ∀ b ∈ conts ++ [c], IsContinuation b :=
      forall_mem_snoc hconts ((isValidUTF8ContinuationByte_test c).mp hc)
    have happ : chars.flatten ++ lead :: conts ++ [c] = chars.flatten ++ lead :: (conts ++ [c]) := by
      simp
    have hlen : (conts ++ [c]).length = conts.length + 1 := by simp
    obtain ⟨q, hq, hstep⟩ := consume_continuation lexicalCast
      (fieldOf lexicalCast head.headers) (head.request (chars.flatten ++ lead :: conts)) hsize
      hlead.le_four hc
    have hcontent : (head.request (chars.flatten ++ lead :: conts)).content ++ [c] =
        chars.flatten ++ lead :: (conts ++ [c]) := happ
    rw [hcontent] at hq hstep
    rw [hstep, List.append_assoc, happ]
    by_cases hlast : size = conts.length + 2
    · have hw : Utf8Shaped (lead :: (conts ++ [c])) :=
        ⟨lead, conts ++ [c], rfl, by rwa [hlen, ← hlast], hcont⟩
      rw [if_pos hlast]
      exact character_done head hchars hlt hw rfl rfl q hq
    · have hread := Reads.continuation head hchars hlt hlead hcont (by omega)
      rw [hlen] at hread
      rw [if_neg hlast]
      exact .reading hread
  · rw [consume_continuation_refused _ _ hc]
    exact .refused

/-- **One byte**: it is read on, or it completes a sentence whose request the parse holds, or it
    is refused. -/
theorem reads_step {s : Bytes} {p : Parse} (h : Reads lexicalCast s p) (c : UInt8) :
    StepResult lexicalCast (s ++ [c]) (consume lexicalCast p c) := by
  cases h with
  | methodStart => exact methodStart_step c
  | method hm => exact method_step hm c
  | uri hm hu => exact uri_step hm hu c
  | literal hm hu hlit => exact literal_step hm hu hlit c
  | major hm hu hM => exact major_step hm hu hM c
  | minorStart hm hu hM => exact minorStart_step hm hu hM c
  | minor hm hu hM hN => exact minor_step hm hu hM hN c
  | newline1 l => exact newline1_step l c
  | headerLineStart l hs => exact headerLineStart_step l hs c
  | headerName l hs hn => exact headerName_step l hs hn c
  | space l hs hn => exact space_step l hs hn c
  | headerValue l hs hn hv => exact headerValue_step l hs hn hv c
  | newline2 l hs h => exact newline2_step l hs h c
  | newline3 l hs => exact newline3_step l hs c
  | content head hchars hlt => exact content_step head hchars hlt c
  | continuation head hchars hlt hlead hconts hsize =>
    exact continuation_step head hchars hlt hlead hconts hsize c

/-- **The invariant holds after every silent input.** -/
theorem reads_of_feed {s : Bytes} {p : Parse}
    (h : feed (consume lexicalCast) .fresh s = (p, none)) : Reads lexicalCast s p := by
  have hstep : ∀ fed q c q', Reads lexicalCast fed q → consume lexicalCast q c = (q', none) →
      Reads lexicalCast (fed ++ [c]) q' := by
    intro fed q c q' hq hc
    have hres := reads_step hq c
    rw [hc] at hres
    cases hres with
    | reading hread => exact hread
  have hread := feed_invariant hstep Reads.methodStart h
  rwa [List.nil_append] at hread

/-- **An accepted input starts with a sentence**, and the parse holds its request. -/
theorem sentence_of_feed {s : Bytes} {p : Parse}
    (h : feed (consume lexicalCast) .fresh s = (p, some true)) :
    ∃ head body rest, s = head.text ++ body ++ rest ∧
      SentenceOf (lengthNat lexicalCast) head body (head.text ++ body) ∧
      p.request = head.request body := by
  obtain ⟨ys, c, zs, q, rfl, hys, hc⟩ := feed_answer h
  have hres := reads_step (reads_of_feed hys) c
  rw [hc] at hres
  cases hres with
  | accepted head body hs hr =>
    refine ⟨head, body, zs, ?_, ⟨rfl, hs.2⟩, hr⟩
    rw [← hs.1, List.append_assoc, List.singleton_append]

end Reads

end BoostAsioWebServer
