/-
  File:      BoostAsioWebServer/Lib/PrefixCode.lean
  Subject:   PREFIX CODES: words that split off the front of a text in one way.

  A class of words is a prefix code when no word is empty and two words at the start of one text
  are the same word. A text is then a sequence of words in at most one way:

  * `Code.flatten_inj`: two sequences of words with one text are one sequence;
  * `Code.mem_of_flatten`: a text of words that is also a text of some of them has those alone.
-/
import Mathlib.Data.List.Basic

namespace PrefixCode

variable {α : Type*}

/-- A prefix code. -/
structure Code (W : List α → Prop) : Prop where
  nonempty : ∀ w, W w → w ≠ []
  front : ∀ v w s t, W v → W w → v ++ s = w ++ t → v = w

variable {W V : List α → Prop}

/-- **A text is read in one way.** -/
theorem Code.flatten_inj (hW : Code W) {vs ws : List (List α)} (hvs : ∀ v ∈ vs, W v)
    (hws : ∀ w ∈ ws, W w) (h : vs.flatten = ws.flatten) : vs = ws := by
  induction vs generalizing ws with
  | nil =>
    cases ws with
    | nil => rfl
    | cons w ws =>
      have hnil : w = [] := (List.append_eq_nil_iff.mp h.symm).1
      exact absurd hnil (hW.nonempty w (hws w List.mem_cons_self))
  | cons v vs ih =>
    cases ws with
    | nil =>
      have hnil : v = [] := (List.append_eq_nil_iff.mp h).1
      exact absurd hnil (hW.nonempty v (hvs v List.mem_cons_self))
    | cons w ws =>
      have hv := hvs v List.mem_cons_self
      have hw := hws w List.mem_cons_self
      obtain rfl := hW.front v w vs.flatten ws.flatten hv hw h
      have htail : vs.flatten = ws.flatten := List.append_cancel_left h
      rw [ih (fun x hx => hvs x (List.mem_cons_of_mem _ hx))
        (fun x hx => hws x (List.mem_cons_of_mem _ hx)) htail]

/-- A text of words that some words alone make up holds no other word. -/
theorem Code.mem_of_flatten (hW : Code W) (hV : ∀ w, V w → W w) {ws : List (List α)}
    (hws : ∀ w ∈ ws, W w) (h : ∃ vs : List (List α), (∀ v ∈ vs, V v) ∧ ws.flatten = vs.flatten) :
    ∀ w ∈ ws, V w := by
  obtain ⟨vs, hvs, hflat⟩ := h
  rw [hW.flatten_inj hws (fun v hv => hV v (hvs v hv)) hflat]
  exact hvs

end PrefixCode
