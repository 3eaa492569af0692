/-
  File:      BoostAsioWebServer/Agents/HeadBoundary.lean
  Subject:   WHERE THE HEAD ENDS.

  The parser passes the blank line once. The states behind it (`isContentState`) are left with a
  verdict only, so a stream has at most one head: `RequestHead.unique`.
-/
import BoostAsioWebServer.Agents.RequestParserAccepts

namespace BoostAsioWebServer

open ByteText Feed

/-! ## 1. The boundary -/

/-- The states that read the body. -/
def isContentState : ParsingState → Bool
  | .expectingContentChar1 => true
  | .expectingContentChar2 => true
  | .expectingContentChar3 => true
  | .expectingContentChar4 => true
  | _ => false

section Boundary

variable (lexicalCast : Bytes → Option Int32)

/-- A state of the body is left for another one, or with a verdict. -/
theorem consume_content {p q : Parse} {c : UInt8} (hp : isContentState p.agent.state = true)
    (h : consume lexicalCast p c = (q, none)) : isContentState q.agent.state = true := by
  obtain ⟨⟨state, header, length, size⟩, request⟩ := p
  cases state <;> try cases hp
  all_goals
    simp only [consume] at h
    split_ifs at h <;> cases h <;> rfl

theorem feed_content {s : Bytes} {p q : Parse} (hp : isContentState p.agent.state = true)
    (h : feed (consume lexicalCast) p s = (q, none)) : isContentState q.agent.state = true := by
  have hstep : ∀ (_ : Bytes) (r : Parse) (c : UInt8) (r' : Parse),
      isContentState r.agent.state = true → consume lexicalCast r c = (r', none) →
      isContentState r'.agent.state = true :=
    fun _ _ _ _ hr hc => consume_content lexicalCast hr hc
  exact @feed_invariant _ _ _ _ (fun _ r => isContentState r.agent.state = true) hstep [] _ hp _ _ h

/-- The line feed of the blank line leaves the head. -/
theorem consume_newline3 {p q : Parse} {c : UInt8} (hp : p.agent.state = .expectingNewline3)
    (h : consume lexicalCast p c = (q, none)) : isContentState q.agent.state = true := by
  obtain ⟨⟨state, header, length, size⟩, request⟩ := p
  obtain rfl : state = .expectingNewline3 := hp
  simp only [consume] at h
  split_ifs at h <;> cases h
  rfl

/-- A stream waits for the line feed of the blank line at one place only. -/
theorem feed_newline3_once {s t : Bytes} {p q : Parse}
    (hs : feed (consume lexicalCast) .fresh s = (p, none)) (hp : p.agent.state = .expectingNewline3)
    (ht : feed (consume lexicalCast) .fresh (s ++ t) = (q, none))
    (hq : q.agent.state = .expectingNewline3) : t = [] := by
  cases t with
  | nil => rfl
  | cons c rest =>
    rw [feed_append_none hs] at ht
    rcases hc : consume lexicalCast p c with ⟨r, o⟩
    cases o with
    | none =>
      rw [feed_cons_none hc] at ht
      have hcontent := feed_content lexicalCast (consume_newline3 lexicalCast hp hc) ht
      rw [hq] at hcontent
      cases hcontent
    | some b =>
      rw [feed_cons_some hc] at ht
      cases ht

end Boundary

/-- A stream that starts with a head, at the line feed of its blank line. -/
theorem RequestHead.text_append (head : RequestHead) (rest : Bytes) :
    head.text ++ rest = (linesText head.line head.headers ++ [CR]) ++ LF :: rest := by
  rw [head.text_split, List.append_assoc]
  rfl

/-- **A stream has one head**: two heads it starts with have the same text, and denote the same
    request. -/
theorem RequestHead.unique {head head' : RequestHead} {rest rest' : Bytes}
    (h : head.text ++ rest = head'.text ++ rest') :
    head.text = head'.text ∧ head.request [] = head'.request [] ∧ rest = rest' := by
  have hfirst := feed_blankLine intOfText head
  have hsecond := feed_blankLine intOfText head'
  have hlines : linesText head.line head.headers ++ [CR] =
      linesText head'.line head'.headers ++ [CR] := by
    rw [head.text_append, head'.text_append] at h
    have hpre : linesText head.line head.headers ++ [CR] <+:
        linesText head'.line head'.headers ++ [CR] ++ LF :: rest' := ⟨LF :: rest, h⟩
    -- the longer of the two would wait for the line feed of the blank line twice
    rcases List.prefix_or_prefix_of_prefix hpre (List.prefix_append _ _) with hle | hle
    · obtain ⟨t, ht⟩ := hle
      rw [← ht] at hsecond
      rw [feed_newline3_once intOfText hfirst rfl hsecond rfl, List.append_nil] at ht
      exact ht
    · obtain ⟨t, ht⟩ := hle
      rw [← ht] at hfirst
      rw [feed_newline3_once intOfText hsecond rfl hfirst rfl, List.append_nil] at ht
      exact ht.symm
  have htext : head.text = head'.text := by
    rw [head.text_split, head'.text_split, hlines]
  rw [hlines, hsecond] at hfirst
  have hrequest := congrArg (fun r : Parse × Option Bool => r.1.request) hfirst
  rw [htext] at h
  exact ⟨htext, hrequest.symm, List.append_cancel_left h⟩

/-! ## 2. Heads to run -/

/-- The request line `GET / HTTP/M.1`. -/
def getLine (major : Bytes) (h : NumberText major) : RequestLine where
  method := ascii "GET"
  uri := ascii "/"
  major := major
  minor := ascii "1"
  method_ne := by decide
  method_token := by decide +kernel
  uri_byte := by decide +kernel
  major_ne := h.1
  major_digit := h.2
  minor_ne := by decide
  minor_digit := by decide +kernel

theorem numberText_one : NumberText (ascii "1") := numberText_singleton (by decide)

/-- A head without headers. -/
def bareHead : RequestHead := ⟨getLine (ascii "1") numberText_one, []⟩

/-- A head that declares a length of one digit. -/
def lengthHead (digit : UInt8) (h : IsDigit digit) : RequestHead where
  line := bareHead.line
  headers :=
    [{ name := ascii "Content-Length"
       value := [digit]
       name_ne := by decide
       name_token := by decide +kernel
       value_byte := by
         intro b hb
         rw [List.mem_singleton.mp hb]
         have hdigit : 48 ≤ digit.toNat ∧ digit.toNat ≤ 57 := h
         intro hcontrol
         have hcontrol' : digit.toNat ≤ 31 ∨ digit.toNat = 127 := hcontrol
         omega }]

end BoostAsioWebServer
