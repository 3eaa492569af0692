/-
  File:      BoostAsioWebServer/Agents/ParserReuse.lean
  Subject:   ONE AGENT, TWO REQUESTS: what an accepted request leaves behind.

  `consume` has five accepting exits. The one behind the fourth byte of a character goes back to
  the start state, the others stay where they are (`exitState`), and none of them forgets the
  declared length.

  * `exit_cases`: an accepted request leaves the agent at the start exactly where its last
    character has four bytes, and then with a declared length that is not zero;
  * `feed_leftover`: a declared length left over is carried through a head that declares none;
  * `readyFor_iff`: the agent reads a second request as a fresh one does, if and only if the first
    one ends in a character of four bytes and the second one declares a length.
-/
import BoostAsioWebServer.Agents.HeadBoundary

namespace BoostAsioWebServer

open ByteText Feed

section Reuse

variable (lexicalCast : Bytes → Option Int32)

/-! ## 1. Reading alike -/

/-- On the stream the verdict falls at the same byte from both parses, and the requests are the
    same. -/
def ReadAlike (p q : Parse) (s : Bytes) : Prop :=
  (∀ k b, AnswersAt (consume lexicalCast) p s k b ↔ AnswersAt (consume lexicalCast) q s k b) ∧
    (feed (consume lexicalCast) p s).1.request = (feed (consume lexicalCast) q s).1.request

/-- The agent reads a request into an empty `Request` as a fresh agent does. -/
def ReadyFor (agent : RequestParserAgent) (s : Bytes) : Prop :=
  ReadAlike lexicalCast ⟨agent, {}⟩ .fresh s

/-- The text ends in a character of four bytes. -/
def EndsInFourBytes (s : Bytes) : Prop :=
  ∃ init w, s = init ++ w ∧ Utf8Shaped w ∧ w.length = 4

/-! ## 2. The accepting exits -/

/-- The state an accepting exit leaves. -/
def exitState : ParsingState → ParsingState
  | .expectingContentChar4 => .methodStart
  | state => state

/-- The states from the blank line on. -/
def isLate (state : ParsingState) : Bool := state = .expectingNewline3 || isContentState state

/-- The five accepting exits. -/
theorem consume_accepting {p q : Parse} {c : UInt8} (h : consume lexicalCast p c = (q, some true)) :
    isLate p.agent.state = true ∧ q.agent.state = exitState p.agent.state ∧
      q.agent.contentLength = p.agent.contentLength ∧ q.agent.header = p.agent.header := by
  obtain ⟨⟨state, header, length, size⟩, request⟩ := p
  cases state
  all_goals
    simp only [consume] at h
    split_ifs at h <;> cases h <;> exact ⟨rfl, rfl, rfl, rfl⟩

/-- The last three bytes of a text that ends in a character of four bytes continue it. -/
theorem EndsInFourBytes.conts {s : Bytes} (h : EndsInFourBytes s) :
    ∃ init b c d, s = init ++ [b, c, d] ∧ IsContinuation b ∧ IsContinuation c ∧
      IsContinuation d := by
  obtain ⟨init, w, rfl, ⟨lead, conts, rfl, -, hconts⟩, hlen⟩ := h
  obtain ⟨b, c, d, rfl⟩ := List.length_eq_three.mp (Nat.succ.inj hlen)
  exact ⟨init ++ [lead], b, c, d, by simp, hconts b (by simp), hconts c (by simp),
    hconts d (by simp)⟩

/-- A lead byte is no continuation byte. -/
theorem Announces.not_continuation {b : UInt8} {n : Nat} (h : Announces b n) :
    ¬ IsContinuation b := by
  intro hb
  have hb' : 0x80 ≤ b.toNat ∧ b.toNat < 0xC0 := hb
  cases h <;> omega

/-- A byte that is no continuation byte, one or two bytes before the end, is not inside a
    character of four bytes at the end. -/
theorem not_endsInFourBytes (init tail : Bytes) {b : UInt8} (hb : ¬ IsContinuation b)
    (htail : tail.length < 3) : ¬ EndsInFourBytes (init ++ b :: tail) := by
  intro h
  obtain ⟨init', x, y, z, heq, hx, hy, hz⟩ := h.conts
  match tail, htail with
  | [], _ =>
    have e : init ++ [b] = (init' ++ [x, y]) ++ [z] := by simp [heq]
    exact hb (List.singleton_inj.mp (List.append_inj' e rfl).2 ▸ hz)
  | [t], _ =>
    have e : init ++ [b, t] = (init' ++ [x]) ++ [y, z] := by simp [heq]
    exact hb ((List.cons.inj (List.append_inj' e rfl).2).1 ▸ hy)
  | [t, u], _ =>
    have e : init ++ [b, t, u] = init' ++ [x, y, z] := heq
    exact hb ((List.cons.inj (List.append_inj' e rfl).2).1 ▸ hx)

/-- A continuation byte that is accepted is the last one its lead byte announces. -/
theorem accepting_continuation {k size : Nat} {len : UInt32} {req : Request} (hk : k + 1 < size)
    (hsize : size ≤ 4) {c : UInt8} {p : Parse}
    (h : consume lexicalCast ⟨⟨continuationState k, ([], []), len, size⟩, req⟩ c = (p, some true)) :
    IsContinuation c ∧ size = k + 2 := by
  by_cases hc : isValidUTF8ContinuationByte c = true
  · obtain ⟨q, -, hstep⟩ := consume_continuation lexicalCast len req hk hsize hc
    refine ⟨(isValidUTF8ContinuationByte_test c).mp hc, ?_⟩
    by_contra hne
    rw [hstep, if_neg hne] at h
    cases h
  · rw [consume_continuation_refused len req hc] at h
    cases h

/-- The end of a character of several bytes: the start state behind one of four bytes, a state of the
    body behind a shorter one. -/
theorem exit_continuation (front : Bytes) {conts : Bytes} {lead c : UInt8} {size : Nat}
    (hlead : Announces lead size) (hconts : ∀ b ∈ conts, IsContinuation b) (hc : IsContinuation c)
    (hlast : size = conts.length + 2) :
    (EndsInFourBytes (front ++ lead :: (conts ++ [c])) ∧
      exitState (continuationState conts.length) = .methodStart) ∨
    (¬ EndsInFourBytes (front ++ lead :: (conts ++ [c])) ∧
      isLate (exitState (continuationState conts.length)) = true) := by
  have hsize4 := hlead.le_four
  have htail : (conts ++ [c]).length = conts.length + 1 := by simp
  by_cases hfour : conts.length = 2
  · have hw : Utf8Shaped (lead :: (conts ++ [c])) :=
      ⟨lead, conts ++ [c], rfl, by rwa [htail, ← hlast], forall_mem_snoc hconts hc⟩
    refine Or.inl ⟨⟨_, _, rfl, hw, by simp [hfour]⟩, ?_⟩
    rw [hfour]
    rfl
  · refine Or.inr ⟨not_endsInFourBytes _ _ hlead.not_continuation (by omega), ?_⟩
    rcases (by omega : conts.length = 0 ∨ conts.length = 1) with hk | hk
    all_goals
      rw [hk]
      rfl

/-- **What an accepted request leaves**: behind a last character of four bytes the agent is at the
    start, with a declared length that is not zero; behind any other it is at the blank line or in
    the body. -/
theorem exit_cases {ys : Bytes} {c : UInt8} {t p : Parse}
    (hys : feed (consume lexicalCast) .fresh ys = (t, none))
    (hc : consume lexicalCast t c = (p, some true)) :
    (EndsInFourBytes (ys ++ [c]) ∧ p.agent.state = .methodStart ∧ p.agent.header = ([], []) ∧
      p.agent.contentLength > 0) ∨
    (¬ EndsInFourBytes (ys ++ [c]) ∧ isLate p.agent.state = true) := by
  obtain ⟨hlate, hstate, hlength, hheader⟩ := consume_accepting lexicalCast hc
  have hread := reads_of_feed hys
  cases hread with
  | newline3 l hs =>
    have hlf : c = LF := by
      by_contra hne
      simp only [consume, hne, if_false] at hc
      cases hc
    have hcont : ¬ IsContinuation LF := by
      intro h
      exact absurd h.1 (by decide)
    subst hlf
    refine Or.inr ⟨not_endsInFourBytes _ [] hcont (by decide), ?_⟩
    rw [hstate]
    rfl
  | content head hchars hlt =>
    have hone : getUTF8Length c = 1 := by
      simp only [consume] at hc
      split_ifs at hc with hpos hone
      · exact hone
      · exact hone
      all_goals cases hc
    have hann : Announces c 1 := (announces_iff c 1).mpr ⟨hone, by decide⟩
    refine Or.inr ⟨not_endsInFourBytes _ [] hann.not_continuation (by decide), ?_⟩
    rw [hstate]
    rfl
  | @continuation head chars lead conts size hchars hlt hlead hconts hsize =>
    obtain ⟨hcont, hlast⟩ := accepting_continuation lexicalCast hsize hlead.le_four hc
    have htext : head.text ++ (chars.flatten ++ lead :: conts) ++ [c] =
        (head.text ++ chars.flatten) ++ lead :: (conts ++ [c]) := by simp
    have hpos : fieldOf lexicalCast head.headers > 0 :=
      UInt32.lt_iff_toNat_lt.mpr (Nat.zero_lt_of_lt hlt)
    rw [htext, hstate, hheader, hlength]
    rcases exit_continuation (head.text ++ chars.flatten) hlead hconts hcont hlast with
      ⟨hfour, hstart⟩ | ⟨hno, hbody⟩
    · exact Or.inl ⟨hfour, hstart, rfl, hpos⟩
    · exact Or.inr ⟨hno, hbody⟩
  | literal hm hu hlit =>
    have hno : ∀ e ∈ versionLiterals, isLate e.1 = false := by decide
    rw [hno _ hlit] at hlate
    cases hlate
  | _ => cases hlate

/-! ## 3. A head read with a declared length left over -/

/-- The parse with another declared length and another character size. -/
def Parse.withLength (p : Parse) (length : UInt32) (size : Nat) : Parse :=
  { p with agent.contentLength := length, agent.contentCharSize := size }

/-- The declared length behind some headers, where `left` was left over before them. -/
def carriedLength (left : UInt32) (headers : List (Bytes × Bytes)) : UInt32 :=
  if lastContentLength headers = none then left else lengthField lexicalCast headers

theorem carriedLength_snoc (left : UInt32) (headers : List (Bytes × Bytes)) (h : Bytes × Bytes) :
    contentLengthAfter lexicalCast h (carriedLength lexicalCast left headers) =
      carriedLength lexicalCast left (headers ++ [h]) := by
  by_cases hc : isContentLength h.1 = true
  · have hlast : lastContentLength (headers ++ [h]) = some h.2 := by
      rw [lastContentLength_snoc, if_pos hc]
    rw [carriedLength, carriedLength, hlast, if_neg (Option.some_ne_none _), ← lengthField_snoc]
    unfold contentLengthAfter
    rw [if_pos hc, if_pos hc]
  · have hlast : lastContentLength (headers ++ [h]) = lastContentLength headers := by
      rw [lastContentLength_snoc, if_neg hc]
    have hfield : lengthField lexicalCast (headers ++ [h]) = lengthField lexicalCast headers := by
      rw [← lengthField_snoc, contentLengthAfter, if_neg hc]
    rw [contentLengthAfter, if_neg hc, carriedLength, carriedLength, hlast, hfield]

/-- A state of the head neither reads the declared length nor the character size; the end of a
    header line writes the length. -/
theorem consume_withLength {p q : Parse} {c : UInt8} (hp : isLate p.agent.state = false)
    (h : consume lexicalCast p c = (q, none)) (left : UInt32) (size : Nat) :
    consume lexicalCast (p.withLength (carriedLength lexicalCast left p.request.headers) size) c =
      (q.withLength (carriedLength lexicalCast left q.request.headers) size, none) := by
  obtain ⟨⟨state, header, length, size₀⟩, request⟩ := p
  cases state <;> try cases hp
  case headerValue =>
    simp only [consume, Parse.withLength] at h ⊢
    by_cases hcr : c = CR
    · rw [if_pos hcr] at h ⊢
      cases h
      rw [carriedLength_snoc]
    · rw [if_neg hcr] at h ⊢
      split_ifs at h ⊢ <;> cases h
      rfl
  all_goals
    simp only [consume, Parse.withLength] at h ⊢
    split_ifs at h ⊢ <;> cases h <;> rfl

/-- A silent step from the blank line on does not go back. -/
theorem consume_late {p q : Parse} {c : UInt8} (hp : isLate p.agent.state = true)
    (h : consume lexicalCast p c = (q, none)) : isLate q.agent.state = true := by
  have hcontent : isContentState q.agent.state = true := by
    rcases Bool.or_eq_true_iff.mp hp with hstate | hstate
    · exact consume_newline3 lexicalCast (of_decide_eq_true hstate) h
    · exact consume_content lexicalCast hstate h
  exact Bool.or_eq_true_iff.mpr (Or.inr hcontent)

/-- **A declared length left over** is carried through the head, up to a header that declares
    another one. -/
theorem feed_leftover {s : Bytes} {q : Parse} (h : feed (consume lexicalCast) .fresh s = (q, none))
    (hq : isLate q.agent.state = false) (left : UInt32) (size : Nat) :
    feed (consume lexicalCast) ⟨⟨.methodStart, ([], []), left, size⟩, {}⟩ s =
      (q.withLength (carriedLength lexicalCast left q.request.headers) size, none) := by
  induction s using List.reverseRecOn generalizing q with
  | nil =>
    cases h
    rfl
  | append_singleton s c ih =>
    obtain ⟨p, hp⟩ := feed_prefix_none h
    rw [feed_append_none hp, feed_singleton] at h
    -- nothing goes back from the blank line to the head
    have hearly : isLate p.agent.state = false := by
      by_contra hlate
      rw [consume_late lexicalCast (Bool.eq_true_of_not_eq_false hlate) h] at hq
      cases hq
    rw [feed_append_none (ih hp hearly), feed_singleton, consume_withLength _ hearly h]

/-- From the blank line on the method is left alone. -/
theorem feed_late_method {p : Parse} (hp : isLate p.agent.state = true) (s : Bytes) :
    (feed (consume lexicalCast) p s).1.request.method = p.request.method := by
  induction s generalizing p with
  | nil => rfl
  | cons c rest ih =>
    have hmethod : (consume lexicalCast p c).1.request.method = p.request.method := by
      obtain ⟨⟨state, header, length, size⟩, request⟩ := p
      cases state <;> try cases hp
      all_goals
        simp only [consume]
        split_ifs <;> rfl
    rcases hc : consume lexicalCast p c with ⟨q, o⟩
    rw [hc] at hmethod
    cases o with
    | none => rw [feed_cons_none hc, ih (consume_late lexicalCast hp hc), hmethod]
    | some b => rw [feed_cons_some hc, hmethod]

/-- The character size is set before it is read: at the blank line it does not matter. -/
theorem feed_newline3_size (length : UInt32) (size : Nat) (request : Request) (s : Bytes) :
    (feed (consume lexicalCast) ⟨⟨.expectingNewline3, ([], []), length, size⟩, request⟩ s).2 =
      (feed (consume lexicalCast) ⟨⟨.expectingNewline3, ([], []), length, 0⟩, request⟩ s).2 ∧
    (feed (consume lexicalCast) ⟨⟨.expectingNewline3, ([], []), length, size⟩, request⟩ s).1.request =
      (feed (consume lexicalCast)
        ⟨⟨.expectingNewline3, ([], []), length, 0⟩, request⟩ s).1.request := by
  cases s with
  | nil => exact ⟨rfl, rfl⟩
  | cons c rest =>
    by_cases hlf : c = LF
    · subst hlf
      by_cases hpos : length > 0
      · rw [feed_cons_none (consume_blankLine_body hpos size request),
          feed_cons_none (consume_blankLine_body hpos 0 request)]
        cases rest with
        | nil => exact ⟨rfl, rfl⟩
        | cons b rest =>
          have hsame : consume lexicalCast
              ⟨⟨.expectingContentChar1, ([], []), length, size⟩, request⟩ b =
              consume lexicalCast ⟨⟨.expectingContentChar1, ([], []), length, 0⟩, request⟩ b := rfl
          simp only [feed, hsame, and_self]
      · rw [feed_cons_some (consume_blankLine_empty hpos size request),
          feed_cons_some (consume_blankLine_empty hpos 0 request)]
        exact ⟨rfl, rfl⟩
    · have hstep (k : Nat) : consume lexicalCast
          ⟨⟨.expectingNewline3, ([], []), length, k⟩, request⟩ c =
          (⟨⟨.expectingNewline3, ([], []), length, k⟩, request⟩, some false) := by
        simp only [consume, hlf, if_false]
      rw [feed_cons_some (hstep size), feed_cons_some (hstep 0)]
      exact ⟨rfl, rfl⟩

/-- The parse in front of the line feed of the blank line, with a length left over. -/
theorem feed_blankLine_leftover (head : RequestHead) (left : UInt32) (size : Nat) :
    feed (consume lexicalCast) ⟨⟨.methodStart, ([], []), left, size⟩, {}⟩
        (linesText head.line head.headers ++ [CR]) =
      (⟨⟨.expectingNewline3, ([], []),
        carriedLength lexicalCast left (head.headers.map HeaderLine.pair), size⟩, head.request []⟩,
        none) := by
  have hlines := feed_leftover lexicalCast (feed_headers lexicalCast head.line head.headers) rfl
    left size
  exact feed_append_none hlines [CR]

/-! ## 4. The theorem -/

/-- A declared length left over is replaced by the one a head declares. -/
theorem carriedLength_declared {headers : List (Bytes × Bytes)}
    (h : lastContentLength headers ≠ none) (left : UInt32) :
    carriedLength lexicalCast left headers = lengthField lexicalCast headers :=
  if_neg h

/-- At the start, an agent reads a request that declares a length as a fresh one does. -/
theorem readAlike_of_declared {head : RequestHead}
    (h : lastContentLength (head.headers.map HeaderLine.pair) ≠ none) (left : UInt32) (size : Nat)
    (rest : Bytes) :
    ReadAlike lexicalCast ⟨⟨.methodStart, ([], []), left, size⟩, {}⟩ .fresh (head.text ++ rest) := by
  have hfresh := feed_blankLine lexicalCast head
  have hleft := feed_blankLine_leftover lexicalCast head left size
  rw [carriedLength_declared lexicalCast h] at hleft
  have hbehind (t : Bytes) := feed_newline3_size lexicalCast
    (fieldOf lexicalCast head.headers) size (head.request []) t
  rw [head.text_append]
  constructor
  · refine answersAt_congr fun ys hys => ?_
    rcases List.prefix_or_prefix_of_prefix hys (List.prefix_append _ _) with hle | hle
    · obtain ⟨t, ht⟩ := hle
      rw [← ht] at hfresh hleft
      obtain ⟨p, hp⟩ := feed_prefix_none hfresh
      obtain ⟨q, hq⟩ := feed_prefix_none hleft
      rw [hp, hq]
    · obtain ⟨t, ht⟩ := hle
      rw [← ht, feed_append_none hfresh, feed_append_none hleft]
      exact (hbehind t).1
  · rw [feed_append_none hfresh, feed_append_none hleft]
    exact (hbehind _).2

/-- At the start, an agent with a declared length left over takes a request that declares none for
    one with a body. -/
theorem not_readAlike_of_undeclared {head : RequestHead}
    (h : lastContentLength (head.headers.map HeaderLine.pair) = none) {left : UInt32}
    (hleft : left > 0) (size : Nat) (rest : Bytes) :
    ¬ ReadAlike lexicalCast ⟨⟨.methodStart, ([], []), left, size⟩, {}⟩ .fresh
      (head.text ++ rest) := by
  intro halike
  have hzero : ¬ fieldOf lexicalCast head.headers > 0 := by
    rw [fieldOf, lengthField, h]
    exact UInt32.lt_irrefl 0
  have hcarried : carriedLength lexicalCast left (head.headers.map HeaderLine.pair) = left :=
    if_pos h
  have hans := answersAt_of_step (feed_blankLine lexicalCast head)
    (consume_blankLine_empty hzero 0 _) rest
  -- the fresh agent answers at the blank line, and this one goes on to a body
  rw [← head.text_append, ← halike.1] at hans
  obtain ⟨-, hverdict, -⟩ := hans
  rw [head.text_append, take_length_succ,
    feed_append_none (feed_blankLine_leftover lexicalCast head left size), feed_singleton,
    hcarried, consume_blankLine_body hleft] at hverdict
  cases hverdict

/-- From the blank line or the body an agent does not read a request. -/
theorem not_readAlike_of_late {agent : RequestParserAgent} (h : isLate agent.state = true)
    (head : RequestHead) (rest : Bytes) :
    ¬ ReadAlike lexicalCast ⟨agent, {}⟩ .fresh (head.text ++ rest) := by
  intro halike
  have hfresh : (feed (consume lexicalCast) .fresh (head.text ++ rest)).1.request.method =
      head.line.method := by
    rw [head.text_append, feed_append_none (feed_blankLine lexicalCast head),
      feed_late_method lexicalCast rfl]
    rfl
  rw [← halike.2, feed_late_method lexicalCast (p := ⟨agent, {}⟩) h] at hfresh
  exact head.line.method_ne hfresh.symm

/-- The declared length of the grammar. -/
abbrev declaredNat (headers : List (Bytes × Bytes)) : Nat :=
  (declaredLength lexicalCast headers).toNat

/-- The agent keeps the declared length, unless that is negative: then what it keeps is not
    zero. -/
theorem lengthField_cases (headers : List (Bytes × Bytes)) :
    lengthNat lexicalCast headers = declaredNat lexicalCast headers ∨
      (declaredNat lexicalCast headers = 0 ∧ lengthField lexicalCast headers > 0) := by
  unfold lengthNat declaredNat lengthField declaredLength
  cases (lastContentLength headers).bind lexicalCast with
  | none => exact Or.inl rfl
  | some n =>
    by_cases hneg : 0 ≤ n.toInt
    · exact Or.inl (Int32.toNat_toUInt32_of_le (Int32.le_iff_toInt_le.mpr hneg))
    · have hle : n.toInt ≤ 0 := by omega
      refine Or.inr ⟨Int.toNat_of_nonpos hle, ?_⟩
      show n.toUInt32 > 0
      refine UInt32.lt_iff_toNat_lt.mpr (Nat.pos_of_ne_zero fun h0 => hneg ?_)
      have hn : n.toUInt32 = 0 := UInt32.toNat_inj.mp h0
      rw [← Int32.toInt32_toUInt32 n, hn]
      decide

/-- A request of the grammar that is accepted is accepted at its last byte. -/
theorem accepted_at_end {head : RequestHead} {body s : Bytes} {p : Parse}
    (hs : SentenceOf (declaredNat lexicalCast) head body s)
    (hp : feed (consume lexicalCast) .fresh s = (p, some true)) :
    ∃ ys c t, s = ys ++ [c] ∧ feed (consume lexicalCast) .fresh ys = (t, none) ∧
      consume lexicalCast t c = (p, some true) := by
  obtain ⟨htext, hbody⟩ := hs
  rcases lengthField_cases lexicalCast (head.headers.map HeaderLine.pair) with heq | ⟨hzero, hpos⟩
  · rw [← heq] at hbody
    obtain ⟨ys, c, t, q, rfl, hys, hc, -⟩ := feed_sentence lexicalCast ⟨htext, hbody⟩
    rw [feed_append_none hys, feed_singleton, hc] at hp
    cases hp
    exact ⟨ys, c, t, rfl, hys, hc⟩
  · rw [Body, hzero, if_pos rfl] at hbody
    subst hbody
    rw [htext, List.append_nil, head.text_split,
      feed_append_none (feed_blankLine lexicalCast head), feed_singleton,
      consume_blankLine_body hpos] at hp
    cases hp

/-- **The agent is ready for a second request if and only if** the first one ends in a character
    of four bytes and the second one declares a length. -/
theorem readyFor_iff {head₁ head₂ : RequestHead} {body₁ body₂ r₁ r₂ : Bytes} {p₁ : Parse}
    (h₁ : SentenceOf (declaredNat lexicalCast) head₁ body₁ r₁)
    (haccepted : feed (consume lexicalCast) .fresh r₁ = (p₁, some true))
    (h₂ : SentenceOf (declaredNat lexicalCast) head₂ body₂ r₂) :
    ReadyFor lexicalCast p₁.agent r₂ ↔
      EndsInFourBytes r₁ ∧ lastContentLength (head₂.headers.map HeaderLine.pair) ≠ none := by
  obtain ⟨ys, c, t, rfl, hys, hc⟩ := accepted_at_end lexicalCast h₁ haccepted
  obtain ⟨rfl, -⟩ := h₂
  rcases exit_cases lexicalCast hys hc with ⟨hfour, hstate, hheader, hlength⟩ | ⟨hno, hlate⟩
  · obtain ⟨⟨state, header, length, size⟩, request⟩ := p₁
    obtain rfl : state = .methodStart := hstate
    obtain rfl : header = ([], []) := hheader
    constructor
    · intro halike
      refine ⟨hfour, fun hnone => ?_⟩
      exact not_readAlike_of_undeclared lexicalCast hnone hlength size body₂ halike
    · intro h
      exact readAlike_of_declared lexicalCast h.2 length size body₂
  · constructor
    · intro halike
      exact absurd halike (not_readAlike_of_late lexicalCast hlate head₂ body₂)
    · intro h
      exact absurd h.1 hno

end Reuse

/-! ## 5. Two pairs of requests -/

/-- A head of a request with a body of four bytes. -/
def fourByteHead : RequestHead := lengthHead (chr '4') (by decide)

/-- The character U+1F600. -/
def fourByteBody : Bytes := [0xF0, 0x9F, 0x98, 0x80]

theorem utf8Shaped_fourByteBody : Utf8Shaped fourByteBody :=
  ⟨0xF0, [0x9F, 0x98, 0x80], rfl, .four (by decide), by
    intro b hb
    simp only [List.mem_cons, List.not_mem_nil, or_false] at hb
    rcases hb with rfl | rfl | rfl <;> exact ⟨by decide, by decide⟩⟩

theorem sentence_fourByte :
    SentenceOf (declaredNat intOfText) fourByteHead fourByteBody
      (fourByteHead.text ++ fourByteBody) := by
  have hlength : declaredNat intOfText (fourByteHead.headers.map HeaderLine.pair) = 4 := by
    decide +kernel
  refine ⟨rfl, ?_⟩
  rw [hlength, Body, if_neg (by decide)]
  exact ⟨[], fourByteBody, by simp, utf8Shaped_fourByteBody, rfl, by decide, by decide⟩

/-- Behind a body that ends in a character of four bytes, a request with a length is read. -/
theorem readyFor_fourByte :
    ReadyFor intOfText
      (feed (consume intOfText) .fresh (fourByteHead.text ++ fourByteBody)).1.agent
      (fourByteHead.text ++ fourByteBody) := by
  have haccepted : feed (consume intOfText) .fresh (fourByteHead.text ++ fourByteBody) =
      ((feed (consume intOfText) .fresh (fourByteHead.text ++ fourByteBody)).1, some true) := by
    decide +kernel
  refine (readyFor_iff intOfText sentence_fourByte haccepted sentence_fourByte).mpr ⟨?_, ?_⟩
  · exact ⟨_, fourByteBody, rfl, utf8Shaped_fourByteBody, rfl⟩
  · decide +kernel

/-- Behind a request without a body the agent still waits at its blank line. -/
theorem readyFor_bare_fails :
    SentenceOf (declaredNat intOfText) bareHead [] bareHead.text ∧
      feed (consume intOfText) .fresh bareHead.text =
        (⟨⟨.expectingNewline3, ([], []), 0, 0⟩, bareHead.request []⟩, some true) ∧
      ¬ ReadyFor intOfText ⟨.expectingNewline3, ([], []), 0, 0⟩ bareHead.text := by
  have hlength : declaredNat intOfText (bareHead.headers.map HeaderLine.pair) = 0 := by
    decide +kernel
  refine ⟨⟨(List.append_nil _).symm, by rw [hlength, Body, if_pos rfl]⟩, by decide +kernel, ?_⟩
  intro hready
  have hlate : isLate (RequestParserAgent.mk .expectingNewline3 ([], []) 0 0).state = true := rfl
  have hno := not_readAlike_of_late intOfText hlate bareHead []
  rw [List.append_nil] at hno
  exact hno hready

end BoostAsioWebServer
