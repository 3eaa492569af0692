/-
  File:      BoostAsioWebServer/Lib/Feed.lean
  Subject:   ONLINE CONSUMERS: a machine that takes one symbol at a time and may answer.

  A consumer is a step function `σ → α → σ × Option β`: it moves to a new state and either stays
  silent (`none`) or answers (`some b`). `feed` hands it a list and stops at the first answer.

  * `feed_append`: what a longer input does after a silent (`feed_append_none`) or an answered
    (`feed_append_some`) prefix;
  * `feed_feed`: feeding a list of segments, segment by segment, is feeding their concatenation
    -- no cut of the input is visible;
  * `feed_invariant`, `feed_preserves`, `feed_measure`, `feed_answer`: the invariant rules, and the
    step at which an answer falls;
  * `feed_loop`: a state family that absorbs one class of symbols absorbs every run of them;
  * `AnswersAt`: the position of the answer, which is unique (`answersAt_unique`), and in the
    segment that brings the answer (`answersAt_within`).
-/
import Mathlib.Data.List.Basic

namespace Feed

variable {σ α β : Type*}

/-! ## 1. Feeding -/

/-- Feeds the symbols in order and stops at the first answer; the symbols behind it stay unread. -/
def feed (step : σ → α → σ × Option β) : σ → List α → σ × Option β
  | s, [] => (s, none)
  | s, a :: as =>
    match step s a with
    | (s', some b) => (s', some b)
    | (s', none) => feed step s' as

variable {step : σ → α → σ × Option β}

@[simp] theorem feed_nil (s : σ) : feed step s [] = (s, none) := rfl

theorem feed_cons_none {s s' : σ} {a : α} (h : step s a = (s', none)) (as : List α) :
    feed step s (a :: as) = feed step s' as := by
  simp only [feed, h]

theorem feed_cons_some {s s' : σ} {a : α} {b : β} (h : step s a = (s', some b)) (as : List α) :
    feed step s (a :: as) = (s', some b) := by
  simp only [feed, h]

@[simp] theorem feed_singleton (s : σ) (a : α) : feed step s [a] = step s a := by
  unfold feed
  split
  · rename_i s' b h
    exact h.symm
  · rename_i s' h
    exact h.symm

/-- What stands behind an answer is not looked at; a silent input hands its state on. -/
theorem feed_append (s : σ) (xs ys : List α) :
    feed step s (xs ++ ys) =
      match feed step s xs with
      | (s', some b) => (s', some b)
      | (s', none) => feed step s' ys := by
  induction xs generalizing s with
  | nil => rfl
  | cons a as ih =>
    rcases hs : step s a with ⟨t, o⟩
    cases o with
    | none => rw [List.cons_append, feed_cons_none hs, feed_cons_none hs, ih]
    | some b => rw [List.cons_append, feed_cons_some hs, feed_cons_some hs]

/-- A silent prefix hands its state to the rest of the input. -/
theorem feed_append_none {xs : List α} {s s' : σ} (h : feed step s xs = (s', none))
    (ys : List α) : feed step s (xs ++ ys) = feed step s' ys := by
  rw [feed_append, h]

/-- After an answer the rest of the input is not looked at. -/
theorem feed_append_some {xs : List α} {s s' : σ} {b : β} (h : feed step s xs = (s', some b))
    (ys : List α) : feed step s (xs ++ ys) = (s', some b) := by
  rw [feed_append, h]

/-- **No cut of the input is visible**: a consumer of segments that feeds each of them through
    answers on a list of segments as the consumer itself does on their concatenation. -/
theorem feed_feed (s : σ) (parts : List (List α)) :
    feed (feed step) s parts = feed step s parts.flatten := by
  induction parts generalizing s with
  | nil => rfl
  | cons p ps ih =>
    rcases hp : feed step s p with ⟨t, o⟩
    cases o with
    | none => rw [feed_cons_none hp, List.flatten_cons, feed_append_none hp, ih]
    | some b => rw [feed_cons_some hp, List.flatten_cons, feed_append_some hp]

/-- An input that stays silent stays silent on each of its prefixes. -/
theorem feed_prefix_none {xs ys : List α} {s s' : σ} (h : feed step s (xs ++ ys) = (s', none)) :
    ∃ t, feed step s xs = (t, none) := by
  rcases hx : feed step s xs with ⟨t, o⟩
  cases o with
  | none => exact ⟨t, rfl⟩
  | some b =>
    rw [feed_append_some hx] at h
    cases h

/-! ## 2. Proof rules -/

/-- **The invariant rule**: `I` relates what has been fed to the state reached; a silent step
    keeps it, so it holds after every silent input. -/
theorem feed_invariant {I : List α → σ → Prop}
    (hstep : ∀ fed s a s', I fed s → step s a = (s', none) → I (fed ++ [a]) s')
    {fed : List α} {s : σ} (h0 : I fed s) {xs : List α} {s' : σ}
    (h : feed step s xs = (s', none)) : I (fed ++ xs) s' := by
  induction xs generalizing fed s with
  | nil =>
    cases h
    rwa [List.append_nil]
  | cons a as ih =>
    rcases hs : step s a with ⟨t, o⟩
    cases o with
    | none =>
      rw [feed_cons_none hs] at h
      have ht := ih (hstep fed s a t h0 hs) h
      rwa [List.append_assoc, List.singleton_append] at ht
    | some b =>
      rw [feed_cons_some hs] at h
      cases h

/-- What every step keeps, answered or not, holds wherever the feeding stops. -/
theorem feed_preserves (I : σ → Prop) (hstep : ∀ s a, I s → I (step s a).1) {s : σ} (h0 : I s)
    (xs : List α) : I (feed step s xs).1 := by
  induction xs generalizing s with
  | nil => exact h0
  | cons a as ih =>
    have ht := hstep s a h0
    rcases hs : step s a with ⟨t, o⟩
    rw [hs] at ht
    cases o with
    | none =>
      rw [feed_cons_none hs]
      exact ih ht
    | some b =>
      rw [feed_cons_some hs]
      exact ht

/-- **The measure rule**: what a step raises by one at most is raised by the symbols fed at most. -/
theorem feed_measure {measure : σ → Nat} (hstep : ∀ s a, measure (step s a).1 ≤ measure s + 1)
    (s : σ) (xs : List α) : measure (feed step s xs).1 ≤ measure s + xs.length := by
  induction xs generalizing s with
  | nil => exact Nat.le_refl _
  | cons a as ih =>
    rcases hs : step s a with ⟨t, o⟩
    have ha : measure t ≤ measure s + 1 := by
      have hstep := hstep s a
      rw [hs] at hstep
      exact hstep
    rw [List.length_cons]
    cases o with
    | none =>
      rw [feed_cons_none hs]
      have ht := ih t
      omega
    | some b =>
      rw [feed_cons_some hs]
      show measure t ≤ _
      omega

/-- An answer falls at one symbol: what stands before it is silent. -/
theorem feed_answer {xs : List α} {s s' : σ} {b : β} (h : feed step s xs = (s', some b)) :
    ∃ ys a zs t, xs = ys ++ a :: zs ∧ feed step s ys = (t, none) ∧ step t a = (s', some b) := by
  induction xs generalizing s with
  | nil => cases h
  | cons a as ih =>
    rcases hs : step s a with ⟨t, o⟩
    cases o with
    | none =>
      rw [feed_cons_none hs] at h
      obtain ⟨ys, c, zs, u, rfl, hys, hc⟩ := ih h
      exact ⟨a :: ys, c, zs, u, rfl, by rw [feed_cons_none hs, hys], hc⟩
    | some c =>
      rw [feed_cons_some hs] at h
      exact ⟨[], a, as, s, rfl, rfl, by rw [hs, h]⟩

variable (step) in
/-- **The loop rule**: where every symbol of a class is absorbed into an accumulator, every run
    of that class is. -/
theorem feed_loop (good : α → Prop) (f : List α → σ)
    (hstep : ∀ acc a, good a → step (f acc) a = (f (acc ++ [a]), none))
    (acc : List α) {xs : List α} (hxs : ∀ a ∈ xs, good a) :
    feed step (f acc) xs = (f (acc ++ xs), none) := by
  induction xs generalizing acc with
  | nil => simp
  | cons a as ih =>
    have ha : good a := hxs a List.mem_cons_self
    rw [feed_cons_none (hstep acc a ha),
      ih (acc ++ [a]) fun b hb => hxs b (List.mem_cons_of_mem _ hb)]
    simp

/-! ## 3. The position of the answer -/

/-- The consumer answers `b` at symbol `k` of the input (counted from one), and is silent
    before it. -/
def AnswersAt (step : σ → α → σ × Option β) (s : σ) (xs : List α) (k : Nat) (b : β) : Prop :=
  k ≤ xs.length ∧ (feed step s (xs.take k)).2 = some b ∧
    ∀ j < k, (feed step s (xs.take j)).2 = none

/-- The answer has one position and one value. -/
theorem answersAt_unique {s : σ} {xs : List α} {k l : Nat} {b c : β}
    (hk : AnswersAt step s xs k b) (hl : AnswersAt step s xs l c) : k = l ∧ b = c := by
  obtain ⟨-, hkb, hkn⟩ := hk
  obtain ⟨-, hlc, hln⟩ := hl
  rcases Nat.lt_trichotomy k l with h | h | h
  · rw [hln k h] at hkb
    cases hkb
  · subst h
    rw [hkb] at hlc
    exact ⟨rfl, Option.some.inj hlc⟩
  · rw [hkn l h] at hlc
    cases hlc

/-- Two states that are silent and answer alike on every prefix answer at the same position. -/
theorem answersAt_congr {s t : σ} {xs : List α}
    (h : ∀ ys, ys <+: xs → (feed step s ys).2 = (feed step t ys).2) (k : Nat) (b : β) :
    AnswersAt step s xs k b ↔ AnswersAt step t xs k b := by
  have htake (j : Nat) : (feed step s (xs.take j)).2 = (feed step t (xs.take j)).2 :=
    h _ (List.take_prefix j xs)
  simp only [AnswersAt, htake]

theorem take_length_succ (ys : List α) (a : α) (zs : List α) :
    (ys ++ a :: zs).take (ys.length + 1) = ys ++ [a] := by
  rw [List.take_length_add_append]
  rfl

/-- A silent input followed by one answered symbol answers at its end. -/
theorem answersAt_of_step {s t s' : σ} {ys : List α} {a : α} {b : β}
    (hys : feed step s ys = (t, none)) (ha : step t a = (s', some b)) (zs : List α) :
    AnswersAt step s (ys ++ a :: zs) (ys.length + 1) b := by
  refine ⟨by simp, ?_, fun j hj => ?_⟩
  · rw [take_length_succ, feed_append_none hys, feed_singleton, ha]
  · have hpre : (ys ++ a :: zs).take j ++ ys.drop j = ys := by
      rw [List.take_append_of_le_length (by omega), List.take_append_drop]
    have hys' := hys
    rw [← hpre] at hys'
    obtain ⟨u, hu⟩ := feed_prefix_none hys'
    rw [hu]

/-- Behind the symbol it is answered at, the input is not looked at. -/
theorem feed_answered {s : σ} {xs : List α} {k : Nat} {b : β} (h : AnswersAt step s xs k b) :
    feed step s (xs.take k) = feed step s xs := by
  obtain ⟨-, hanswer, -⟩ := h
  rcases hx : feed step s (xs.take k) with ⟨s', o⟩
  rw [hx] at hanswer
  cases hanswer
  have hall := feed_append_some hx (xs.drop k)
  rw [List.take_append_drop] at hall
  exact hall.symm

/-- An input is answered exactly where it is answered at one of its symbols. -/
theorem feed_some_iff {s : σ} {xs : List α} {b : β} :
    (feed step s xs).2 = some b ↔ ∃ k, AnswersAt step s xs k b := by
  constructor
  · intro h
    rcases hx : feed step s xs with ⟨s', o⟩
    rw [hx] at h
    cases h
    obtain ⟨ys, a, zs, t, rfl, hys, ha⟩ := feed_answer hx
    exact ⟨_, answersAt_of_step hys ha zs⟩
  · rintro ⟨k, h⟩
    rw [← feed_answered h]
    exact h.2.1

/-- The symbol an input is answered at is in the segment that brings the answer. -/
theorem answersAt_within {s : σ} {xs ys zs : List α} {k : Nat} {b c : β}
    (hxs : (feed step s xs).2 = none) (hys : (feed step s (xs ++ ys)).2 = some c)
    (h : AnswersAt step s (xs ++ ys ++ zs) k b) : xs.length < k ∧ k ≤ (xs ++ ys).length := by
  obtain ⟨-, hanswer, hsilent⟩ := h
  constructor
  · by_contra hle
    have htake : (xs ++ ys ++ zs).take k = xs.take k := by
      rw [List.append_assoc, List.take_append_of_le_length (Nat.not_lt.mp hle)]
    have hfeed : feed step s (xs.take k ++ xs.drop k) = ((feed step s xs).1, none) := by
      rw [List.take_append_drop]
      exact Prod.ext rfl hxs
    obtain ⟨t, ht⟩ := feed_prefix_none hfeed
    rw [htake, ht] at hanswer
    cases hanswer
  · by_contra hlt
    have hnone := hsilent (xs ++ ys).length (Nat.not_le.mp hlt)
    rw [List.take_left, hys] at hnone
    cases hnone

end Feed
