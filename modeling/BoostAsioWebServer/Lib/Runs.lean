/-
  File:      BoostAsioWebServer/Lib/Runs.lean
  Subject:   RUNS OF AN EVENT-DRIVEN MACHINE.

  A machine is a partial step function `σ → ε → Option σ`: an event the state does not admit has
  no successor. `Run step s es s'` says that the events `es` lead from `s` to `s'`.

  * `Run.nil_iff`, `Run.cons_iff`, `Run.append_iff`, `Run.snoc_iff`: taking a run apart;
  * `Run.invariant`: what every step keeps holds at the end of every run;
  * `Run.history`: the same for a relation between the events so far and the state;
  * `Run.functional`: the events determine the state reached;
  * `StepsMeet`, `Run.invariant_of_steps`: a condition on the steps of a run, and what it keeps;
    `exists_step_of_not_stepsMeet`: the step at which a run first breaks it, and the rest;
  * `Throughout`: a property of every state on the way;
  * `Run.simulation`: a run of one machine matched by a run of another;
  * `Run.rank`: a rank that some events lower and no event raises bounds how many of these there
    are; `Run.progress`: where an event lowers it until the goal is met, some run meets the goal.
-/
import Mathlib.Data.List.Induction
import Mathlib.Tactic.Common

namespace Runs

variable {σ ε : Type*}

/-- The events lead from the first state to the second. -/
def Run (step : σ → ε → Option σ) (s : σ) (es : List ε) (s' : σ) : Prop :=
  es.foldlM step s = some s'

variable {step : σ → ε → Option σ}

@[simp] theorem Run.nil_iff {s s' : σ} : Run step s [] s' ↔ s' = s := by
  simp [Run, eq_comm]

theorem Run.cons_iff {s s' : σ} {e : ε} {es : List ε} :
    Run step s (e :: es) s' ↔ ∃ t, step s e = some t ∧ Run step t es s' := by
  simp [Run, List.foldlM_cons, Option.bind_eq_some_iff]

theorem Run.append_iff {s s' : σ} {es fs : List ε} :
    Run step s (es ++ fs) s' ↔ ∃ t, Run step s es t ∧ Run step t fs s' := by
  simp [Run, List.foldlM_append, Option.bind_eq_some_iff]

theorem Run.snoc_iff {s s' : σ} {es : List ε} {e : ε} :
    Run step s (es ++ [e]) s' ↔ ∃ t, Run step s es t ∧ step t e = some s' := by
  rw [Run.append_iff]
  refine exists_congr fun t => and_congr_right fun _ => ?_
  rw [Run.cons_iff]
  simp

/-- The events determine the state reached. -/
theorem Run.functional {s s₁ s₂ : σ} {es : List ε} (h₁ : Run step s es s₁)
    (h₂ : Run step s es s₂) : s₁ = s₂ :=
  Option.some.inj (h₁.symm.trans h₂)

/-- **The history rule**: `I` relates the events so far to the state; every admitted step keeps
    it, so it holds after every run. -/
theorem Run.history {I : List ε → σ → Prop}
    (hstep : ∀ es s e s', I es s → step s e = some s' → I (es ++ [e]) s')
    {s : σ} (h0 : I [] s) {es : List ε} {s' : σ} (h : Run step s es s') : I es s' := by
  induction es using List.reverseRecOn generalizing s' with
  | nil =>
    rw [Run.nil_iff] at h
    exact h ▸ h0
  | append_singleton es e ih =>
    obtain ⟨t, ht, he⟩ := Run.snoc_iff.mp h
    exact hstep es t e s' (ih ht) he

/-- **The invariant rule**: what every step keeps holds at the end of every run. -/
theorem Run.invariant {I : σ → Prop} (hstep : ∀ s e s', I s → step s e = some s' → I s')
    {s : σ} (h0 : I s) {es : List ε} {s' : σ} (h : Run step s es s') : I s' :=
  Run.history (I := fun _ => I) (fun _ s e s' => hstep s e s') h0 h

/-! ## Conditions on the steps -/

/-- Every step of the run meets `P`, a condition on the state before it and its event. -/
def StepsMeet (step : σ → ε → Option σ) (P : σ → ε → Prop) (s : σ) (es : List ε) : Prop :=
  ∀ pre e post t, es = pre ++ e :: post → Run step s pre t → P t e

/-- Every state on the way has `Q`, the first and the last among them. -/
def Throughout (step : σ → ε → Option σ) (Q : σ → Prop) (s : σ) (es : List ε) : Prop :=
  ∀ pre post t, es = pre ++ post → Run step s pre t → Q t

theorem StepsMeet.take {P : σ → ε → Prop} {s : σ} {es fs : List ε}
    (h : StepsMeet step P s (es ++ fs)) : StepsMeet step P s es := by
  intro pre e post t he hrun
  refine h pre e (post ++ fs) t ?_ hrun
  rw [he, List.append_assoc, List.cons_append]

/-- **The invariant rule under a condition on the steps.** -/
theorem Run.invariant_of_steps {P : σ → ε → Prop} {I : σ → Prop}
    (hstep : ∀ s e s', I s → P s e → step s e = some s' → I s') {s : σ} (h0 : I s)
    {es : List ε} {s' : σ} (h : Run step s es s') (hP : StepsMeet step P s es) : I s' := by
  -- the condition speaks of the run so far, so that goes into the history
  have hhistory : Run step s es s' ∧ (StepsMeet step P s es → I s') := by
    refine Run.history (I := fun es t => Run step s es t ∧ (StepsMeet step P s es → I t)) ?_
      ⟨Run.nil_iff.mpr rfl, fun _ => h0⟩ h
    intro es t e t' hhist he
    obtain ⟨hrun, ht⟩ := hhist
    refine ⟨Run.snoc_iff.mpr ⟨t, hrun, he⟩, fun hsteps => ?_⟩
    exact hstep t e t' (ht hsteps.take) (hsteps es e [] t rfl hrun) he
  exact hhistory.2 hP

/-- A run that breaks the condition has a step that breaks it, and goes on from there. -/
theorem exists_step_of_not_stepsMeet {P : σ → ε → Prop} {s s' : σ} {es : List ε}
    (h : Run step s es s') (hP : ¬ StepsMeet step P s es) :
    ∃ pre e post t t', es = pre ++ e :: post ∧ Run step s pre t ∧ ¬ P t e ∧ step t e = some t' ∧
      Run step t' post s' := by
  unfold StepsMeet at hP
  push Not at hP
  obtain ⟨pre, e, post, t, rfl, hpre, hbroken⟩ := hP
  obtain ⟨u, hu, hrest⟩ := Run.append_iff.mp h
  obtain ⟨t', he, hpost⟩ := Run.cons_iff.mp hrest
  rw [Run.functional hu hpre] at he
  exact ⟨pre, e, post, t, t', rfl, hpre, hbroken, he, hpost⟩

/-! ## Simulations -/

/-- **The simulation rule**: every step of the one machine is matched by the event of the other it
    stands for, or by none, under a condition on the events so far that goes over to their front
    parts. Then every run is matched by a run. -/
theorem Run.simulation {τ δ : Type*} {step' : τ → δ → Option τ} {meaning : ε → Option δ}
    {R : σ → τ → Prop} {P : List ε → Prop} (hfront : ∀ es e, P (es ++ [e]) → P es)
    {s₀ : σ} {t₀ : τ} (h0 : R s₀ t₀)
    (hstep : ∀ es s e s' t, Run step s₀ es s → Run step' t₀ (es.filterMap meaning) t → R s t →
      P (es ++ [e]) → step s e = some s' → ∃ t', Run step' t (meaning e).toList t' ∧ R s' t')
    {es : List ε} {s : σ} (h : Run step s₀ es s) (hP : P es) :
    ∃ t, Run step' t₀ (es.filterMap meaning) t ∧ R s t := by
  induction es using List.reverseRecOn generalizing s with
  | nil =>
    rw [Run.nil_iff] at h
    exact ⟨t₀, Run.nil_iff.mpr rfl, h ▸ h0⟩
  | append_singleton es e ih =>
    obtain ⟨u, hu, he⟩ := Run.snoc_iff.mp h
    obtain ⟨t, ht, hR⟩ := ih hu (hfront es e hP)
    obtain ⟨t', ht', hR'⟩ := hstep es u e s t hu ht hR hP he
    refine ⟨t', ?_, hR'⟩
    have hlast : [e].filterMap meaning = (meaning e).toList := by
      cases hm : meaning e with
      | none => simp [hm]
      | some d => simp [hm]
    rw [List.filterMap_append, hlast]
    exact Run.append_iff.mpr ⟨t, ht, ht'⟩

/-! ## Ranks -/

/-- **The rank rule**: where every step keeps `I` and lowers the rank by one at least if it is one
    of the events counted, there are no more of these than the rank at the beginning. -/
theorem Run.rank {I : σ → Prop} {rank : σ → Nat} {counted : ε → Bool} {P : ε → Prop}
    (hstep : ∀ s e s', I s → P e → step s e = some s' →
      I s' ∧ rank s' + (if counted e then 1 else 0) ≤ rank s)
    {s : σ} (h0 : I s) {es : List ε} {s' : σ} (h : Run step s es s') (hP : ∀ e ∈ es, P e) :
    I s' ∧ es.countP counted + rank s' ≤ rank s := by
  induction es generalizing s with
  | nil =>
    rw [Run.nil_iff] at h
    rw [h, List.countP_nil, Nat.zero_add]
    exact ⟨h0, Nat.le_refl _⟩
  | cons e es ih =>
    obtain ⟨t, ht, hrest⟩ := Run.cons_iff.mp h
    obtain ⟨hI, hrank⟩ := hstep s e t h0 (hP e List.mem_cons_self) ht
    obtain ⟨hI', hrank'⟩ := ih hI hrest fun f hf => hP f (List.mem_cons_of_mem e hf)
    refine ⟨hI', ?_⟩
    rw [List.countP_cons]
    omega

/-- **The progress rule**: where from every state short of the goal some event of a kind leads on
    and lowers the rank, a run of such events leads to the goal, in no more of them than the rank at
    the beginning. -/
theorem Run.progress {goal : σ → Prop} {rank : σ → Nat} {P : ε → Prop} {s : σ}
    (hstep : ∀ es t, Run step s es t → (∀ e ∈ es, P e) → ¬ goal t →
      ∃ e t', P e ∧ step t e = some t' ∧ rank t' < rank t) :
    ∃ es t, Run step s es t ∧ (∀ e ∈ es, P e) ∧ goal t ∧ es.length ≤ rank s := by
  induction hn : rank s using Nat.strongRecOn generalizing s with
  | ind n ih =>
    by_cases hgoal : goal s
    · exact ⟨[], s, Run.nil_iff.mpr rfl, fun e he => absurd he List.not_mem_nil, hgoal,
        Nat.zero_le _⟩
    · obtain ⟨e, t, he, ht, hless⟩ :=
        hstep [] s (Run.nil_iff.mpr rfl) (fun e he => absurd he List.not_mem_nil) hgoal
      have hrest : ∀ es t', Run step t es t' → (∀ f ∈ es, P f) → ¬ goal t' →
          ∃ f t'', P f ∧ step t' f = some t'' ∧ rank t'' < rank t' := by
        intro es t' hes hP
        exact hstep (e :: es) t' (Run.cons_iff.mpr ⟨t, ht, hes⟩) (List.forall_mem_cons.mpr ⟨he, hP⟩)
      obtain ⟨es, t', hes, hP, hgoal', hlength⟩ := ih (rank t) (hn ▸ hless) hrest rfl
      refine ⟨e :: es, t', Run.cons_iff.mpr ⟨t, ht, hes⟩, List.forall_mem_cons.mpr ⟨he, hP⟩, hgoal',
        ?_⟩
      rw [List.length_cons, ← hn]
      omega

end Runs
