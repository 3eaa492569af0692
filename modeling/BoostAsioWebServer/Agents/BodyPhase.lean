/-
  File:      BoostAsioWebServer/Agents/BodyPhase.lean
  Subject:   WHAT THE PARSER HOLDS OF THE BODY, in every state it can be in.

  The content, the declared length, the state and the character size are kept together by
  `BodyPhase`: before the body the content is empty; between two characters it is a run of whole
  ones, short of the declared length; inside a character it is such a run and the bytes of the
  character that has begun.

  * `Reads.bodyPhase`: the invariant, read off what has been read;
  * `consume_content_length`: a byte adds one byte to the content at most;
  * `BodyPhase.consume_le`: so the byte of the verdict leaves three bytes too many at most;
  * `bodyPhase_feed`: the invariant after any bytes, and the bound behind any verdict.
-/
import BoostAsioWebServer.Agents.HeadBoundary

namespace BoostAsioWebServer

open ByteText Feed

/-! ## 1. The invariant -/

/-- A run of whole characters. -/
def CharacterRun (text : Bytes) : Prop :=
  ∃ chars : List Bytes, (∀ w ∈ chars, Utf8Shaped w) ∧ text = chars.flatten

/-- The first bytes of a character whose lead byte announces `size` bytes. -/
def Begun (size : Nat) (text : Bytes) : Prop :=
  ∃ lead conts, text = lead :: conts ∧ Announces lead size ∧ ∀ b ∈ conts, IsContinuation b

/-- The state that waits for byte `k` of a character, `2 ≤ k ≤ 4`. -/
abbrev contentChar (k : Nat) : ParsingState := continuationState (k - 2)

/-- Inside a character, in front of its byte `k`. -/
structure InsideCharacter (k : Nat) (p : Parse) (run started : Bytes) : Prop where
  content : p.request.content = run ++ started
  whole : CharacterRun run
  short : run.length < p.agent.contentLength.toNat
  begun : Begun p.agent.contentCharSize started
  count : started.length = k - 1
  size : k ≤ p.agent.contentCharSize ∧ p.agent.contentCharSize ≤ 4

/-- **The invariant of the body.** -/
structure BodyPhase (p : Parse) : Prop where
  outside : isContentState p.agent.state = false → p.request.content = []
  between : p.agent.state = .expectingContentChar1 →
    CharacterRun p.request.content ∧ p.request.content.length < p.agent.contentLength.toNat
  inside : ∀ k, 2 ≤ k → k ≤ 4 → p.agent.state = contentChar k →
    ∃ run started, InsideCharacter k p run started

/-! ## 2. The states of the body -/

theorem isContentState_continuationState (n : Nat) :
    isContentState (continuationState n) = true := by
  unfold continuationState
  split <;> rfl

/-- A state inside a character is not the one between two. -/
theorem continuationState_ne_first (n : Nat) :
    continuationState n ≠ .expectingContentChar1 := by
  unfold continuationState
  split <;> decide

/-- Up to the fourth byte the state tells how many continuation bytes it waits behind. -/
theorem continuationState_inj {m n : Nat} (hm : m ≤ 2) (hn : n ≤ 2)
    (h : continuationState m = continuationState n) : m = n := by
  have hall : ∀ m < 3, ∀ n < 3, continuationState m = continuationState n → m = n := by decide
  exact hall m (by omega) n (by omega) h

/-- The states of the body: between two characters, or in front of byte `k` of one. -/
theorem isContentState_cases {state : ParsingState} (h : isContentState state = true) :
    state = .expectingContentChar1 ∨ ∃ k, 2 ≤ k ∧ k ≤ 4 ∧ state = contentChar k := by
  cases state <;> try cases h
  case expectingContentChar1 => exact Or.inl rfl
  case expectingContentChar2 => exact Or.inr ⟨2, by decide, by decide, rfl⟩
  case expectingContentChar3 => exact Or.inr ⟨3, by decide, by decide, rfl⟩
  case expectingContentChar4 => exact Or.inr ⟨4, by decide, by decide, rfl⟩

/-! ## 3. The invariant holds -/

section Phase

variable {lexicalCast : Bytes → Option Int32}

/-- Before the body there is no more to say than that the content is empty. -/
theorem BodyPhase.of_outside {p : Parse} (hstate : isContentState p.agent.state = false)
    (hcontent : p.request.content = []) : BodyPhase p where
  outside _ := hcontent
  between h := by
    rw [h] at hstate
    cases hstate
  inside k _ _ h := by
    rw [h, isContentState_continuationState] at hstate
    cases hstate

/-- **What has been read is in its phase.** -/
theorem Reads.bodyPhase {s : Bytes} {p : Parse} (h : Reads lexicalCast s p) : BodyPhase p := by
  cases h with
  | content head hchars hlt =>
    refine ⟨fun h => (by cases h), fun _ => ⟨⟨_, hchars, rfl⟩, hlt⟩, fun k _ _ h => ?_⟩
    exact absurd h.symm (continuationState_ne_first _)
  | @continuation head chars lead conts size hchars hlt hlead hconts hsize =>
    have hle := hlead.le_four
    refine ⟨fun h => ?_, fun h => absurd h (continuationState_ne_first _), fun k hk hk4 h => ?_⟩
    · rw [isContentState_continuationState] at h
      cases h
    · have hconts' : conts.length = k - 2 := continuationState_inj (by omega) (by omega) h
      refine ⟨chars.flatten, lead :: conts, rfl, ⟨chars, hchars, rfl⟩, hlt,
        ⟨lead, conts, rfl, hlead, hconts⟩, ?_, ?_, hle⟩
      · rw [List.length_cons, hconts']
        omega
      · show k ≤ size
        omega
  | literal hm hu hlit =>
    have hno : ∀ e ∈ versionLiterals, isContentState e.1 = false := by decide
    exact .of_outside (hno _ hlit) rfl
  | _ => exact .of_outside rfl rfl

/-- In its phase, the content exceeds the declared length by two bytes at most. -/
theorem BodyPhase.content_le {p : Parse} (h : BodyPhase p) :
    p.request.content.length ≤ p.agent.contentLength.toNat + 2 := by
  by_cases hstate : isContentState p.agent.state = true
  · rcases isContentState_cases hstate with hfirst | ⟨k, hk, hk4, hinside⟩
    · have hshort := (h.between hfirst).2
      omega
    · obtain ⟨run, started, hcontent, -, hshort, -, hlen, -⟩ := h.inside k hk hk4 hinside
      rw [hcontent, List.length_append]
      omega
  · rw [h.outside (Bool.eq_false_of_not_eq_true hstate)]
    exact Nat.zero_le _

variable (lexicalCast) in
/-- A byte adds one byte to the content at most, and that in the body only, where the declared
    length stays. -/
theorem consume_content_length (p : Parse) (c : UInt8) :
    (isContentState p.agent.state = false →
      (consume lexicalCast p c).1.request.content = p.request.content) ∧
    (isContentState p.agent.state = true →
      (consume lexicalCast p c).1.agent.contentLength = p.agent.contentLength ∧
      (consume lexicalCast p c).1.request.content.length ≤ p.request.content.length + 1) := by
  obtain ⟨⟨state, header, length, size⟩, request⟩ := p
  cases state
  all_goals
    refine ⟨fun h => ?_, fun h => ?_⟩ <;> try cases h
  all_goals
    simp only [consume]
    split_ifs <;> simp

variable (lexicalCast) in
/-- A byte in a phase of the body leaves at most three bytes more than are declared, also where it
    brings the verdict. -/
theorem BodyPhase.consume_le {p : Parse} (h : BodyPhase p) (c : UInt8) :
    (consume lexicalCast p c).1.request.content.length ≤
      (consume lexicalCast p c).1.agent.contentLength.toNat + 3 := by
  have hbyte := consume_content_length lexicalCast p c
  cases hstate : isContentState p.agent.state with
  | false =>
    rw [hbyte.1 hstate, h.outside hstate]
    exact Nat.zero_le _
  | true =>
    obtain ⟨hlength, hcontent⟩ := hbyte.2 hstate
    have hle := h.content_le
    rw [hlength]
    omega

/-- **The body after any bytes**: fed to a fresh agent they leave it in a phase of the body as long
    as there is no verdict, and never with more than three bytes above the declared length. -/
theorem bodyPhase_feed {s : Bytes} {p : Parse} {verdict : Option Bool}
    (h : feed (consume lexicalCast) .fresh s = (p, verdict)) :
    (verdict = none → BodyPhase p) ∧
      p.request.content.length ≤ p.agent.contentLength.toNat + 3 := by
  cases verdict with
  | none =>
    have hphase := (reads_of_feed h).bodyPhase
    have hle := hphase.content_le
    exact ⟨fun _ => hphase, by omega⟩
  | some b =>
    -- the verdict falls at one byte, and the parse in front of it is in its phase
    obtain ⟨before, c, rest, q, -, hbefore, hc⟩ := feed_answer h
    have hle := (reads_of_feed hbefore).bodyPhase.consume_le lexicalCast c
    rw [hc] at hle
    exact ⟨fun h => (by cases h), hle⟩

end Phase

/-! ## 4. Inside a character -/

/-- A head that declares one byte. -/
def oneByteHead : RequestHead := lengthHead (chr '1') (by decide)

/-- Three bytes of a character of four, where one byte is declared. -/
def threeOfFour : Bytes := oneByteHead.text ++ [0xF0, 0x9F, 0x98]

/-- The content holds two bytes more than are declared. -/
theorem bodyPhase_threeOfFour :
    ∃ p, feed (consume intOfText) .fresh threeOfFour = (p, none) ∧ BodyPhase p ∧
      p.agent.state = contentChar 4 ∧ p.agent.contentLength = 1 ∧
      p.request.content = [0xF0, 0x9F, 0x98] := by
  have hfeed : (feed (consume intOfText) .fresh threeOfFour).2 = none := by decide +kernel
  have hparse : (feed (consume intOfText) .fresh threeOfFour).1.agent.state = contentChar 4 ∧
      (feed (consume intOfText) .fresh threeOfFour).1.agent.contentLength = 1 ∧
      (feed (consume intOfText) .fresh threeOfFour).1.request.content = [0xF0, 0x9F, 0x98] := by
    decide +kernel
  refine ⟨_, Prod.ext rfl hfeed, ?_, hparse⟩
  exact (bodyPhase_feed (Prod.ext rfl hfeed)).1 rfl

end BoostAsioWebServer
