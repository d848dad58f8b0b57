import Mathlib.Data.Int.Notation
import Mathlib.Data.List.Basic

/-!
# Runs of event-driven machines

A component of the implementation is modelled by a total step function on an
explicit state.  This module contains the facts about such machines which do
not depend on what the state or the events are: how runs compose, and how a
property of one step is carried through a whole run.
-/

namespace Pstream.Support

variable {σ ε : Type*}

/-- The state reached from `s` by handling the events of `es` in order. -/
def run (step : σ → ε → σ) (s : σ) (es : List ε) : σ := es.foldl step s

variable (step : σ → ε → σ) (s : σ)

@[simp] theorem run_nil : run step s [] = s := rfl

variable (e : ε) (es : List ε)

@[simp] theorem run_cons : run step s (e :: es) = run step (step s e) es := rfl

theorem run_append (fs : List ε) : run step s (es ++ fs) = run step (run step s es) fs := by
  simp [run]

theorem run_concat (e : ε) : run step s (es ++ [e]) = step (run step s es) e := by
  simp [run_append]

/-- Every event of `es` meets `P` in the state just before it is handled. -/
def AllSteps (step : σ → ε → σ) (P : σ → ε → Prop) : σ → List ε → Prop
  | _, [] => True
  | s, e :: es => P s e ∧ AllSteps step P (step s e) es

@[simp] theorem allSteps_nil (P : σ → ε → Prop) (s : σ) : AllSteps step P s [] := trivial

@[simp] theorem allSteps_cons (P : σ → ε → Prop) (s : σ) (e : ε) (es : List ε) :
    AllSteps step P s (e :: es) ↔ P s e ∧ AllSteps step P (step s e) es :=
  Iff.rfl

instance AllSteps.instDecidable (step : σ → ε → σ) (P : σ → ε → Prop) [∀ s e, Decidable (P s e)] :
    ∀ (s : σ) (es : List ε), Decidable (AllSteps step P s es)
  | _, [] => isTrue trivial
  | s, e :: es =>
    have := AllSteps.instDecidable step P (step s e) es
    inferInstanceAs (Decidable (P s e ∧ AllSteps step P (step s e) es))

variable {step : σ → ε → σ} {P Q : σ → ε → Prop} {s : σ} {es : List ε} {I : σ → Prop}

theorem allSteps_append {fs : List ε} : AllSteps step P s (es ++ fs) ↔
      AllSteps step P s es ∧ AllSteps step P (run step s es) fs := by
  induction es generalizing s with
  | nil => simp
  | cons e es ih => simp [ih, and_assoc]

theorem AllSteps.mono (hPQ : ∀ s e, P s e → Q s e) (h : AllSteps step P s es) :
    AllSteps step Q s es := by
  induction es generalizing s with
  | nil => trivial
  | cons e es ih => exact ⟨hPQ s e h.1, ih h.2⟩

theorem AllSteps.and (hP : AllSteps step P s es) (hQ : AllSteps step Q s es) :
    AllSteps step (fun s e => P s e ∧ Q s e) s es := by
  induction es generalizing s with
  | nil => trivial
  | cons e es ih => exact ⟨⟨hP.1, hQ.1⟩, ih hP.2 hQ.2⟩

theorem allSteps_of_forall {P : ε → Prop} (h : ∀ e ∈ es, P e) :
    AllSteps step (fun _ e => P e) s es := by
  induction es generalizing s with
  | nil => trivial
  | cons e es ih =>
    exact ⟨h e (by simp), ih fun x hx => h x (by simp [hx])⟩

/-- What every step allowed by `P` preserves holds at the end of every run
whose steps are all allowed. -/
theorem run_invariant (hstep : ∀ s e, I s → P s e → I (step s e)) (hs : I s)
    (hes : AllSteps step P s es) : I (run step s es) := by
  induction es generalizing s with
  | nil => exact hs
  | cons e es ih => exact ih (hstep s e hs hes.1) hes.2

/-- What the events of a run give out, in order. -/
def outputs {α : Type*} (step : σ → ε → σ) (out : σ → ε → List α) : σ → List ε → List α
  | _, [] => []
  | s, e :: es => out s e ++ outputs step out (step s e) es

/-- An invariant of the state and of all that was given out so far. -/
theorem outputs_invariant {α : Type*} {out : σ → ε → List α} {J : List α → σ → Prop}
    (hstep : ∀ xs s e, J xs s → J (xs ++ out s e) (step s e)) {xs : List α} (hs : J xs s)
    (es : List ε) : J (xs ++ outputs step out s es) (run step s es) := by
  induction es generalizing s xs with
  | nil => rwa [outputs, List.append_nil]
  | cons e es ih =>
    rw [outputs, ← List.append_assoc]
    exact ih (hstep xs s e hs)

/-- A condition that makes one step good, together with an invariant, makes
every step of the run good. -/
theorem allSteps_of_invariant (hstep : ∀ s e, I s → P s e → I (step s e))
    (hgood : ∀ s e, I s → P s e → Q s e) (hs : I s) (hes : AllSteps step P s es) :
    AllSteps step Q s es := by
  induction es generalizing s with
  | nil => trivial
  | cons e es ih =>
    exact ⟨hgood s e hs hes.1, ih (hstep s e hs hes.1) hes.2⟩

/-- Two conditions that are equivalent under an invariant hold for all steps of the
same runs, if the steps that meet them keep the invariant. -/
theorem allSteps_congr {R : σ → ε → Prop} (hstep : ∀ s e, I s → P s e → R s e → I (step s e))
    (hiff : ∀ s e, I s → P s e → (Q s e ↔ R s e)) (hs : I s) (hes : AllSteps step P s es) :
    AllSteps step Q s es ↔ AllSteps step R s es := by
  induction es generalizing s with
  | nil => simp
  | cons e es ih =>
    rw [allSteps_cons, hiff s e hs hes.1]
    exact and_congr_right fun hR => ih (hstep s e hs hes.1 hR) hes.2

/-- A quantity that each step increases by its loss is unchanged by a run
exactly if no step of the run has a loss. -/
theorem lossless_iff {ι : Type*} {quantity : σ → ι → ℤ} {loss : σ → ε → ι → ℕ}
    (hinv : ∀ s e, I s → P s e → I (step s e))
    (hstep : ∀ s e, I s → P s e → ∀ i, quantity (step s e) i = quantity s i + loss s e i) (hs : I s)
    (hes : AllSteps step P s es) :
    (∀ i, quantity (run step s es) i = quantity s i) ↔
      AllSteps step (fun s e => ∀ i, loss s e i = 0) s es := by
  have hmono : ∀ {s es}, I s → AllSteps step P s es →
      ∀ i, quantity s i ≤ quantity (run step s es) i := by
    intro s es
    induction es generalizing s with
    | nil => exact fun _ _ _ => Int.le_refl _
    | cons e es ih =>
      intro hs hes i
      have hnext := hstep s e hs hes.1 i
      have hrest := ih (hinv s e hs hes.1) hes.2 i
      rw [run_cons]
      omega
  induction es generalizing s with
  | nil => simp
  | cons e es ih =>
    have hs' := hinv s e hs hes.1
    have hnext := hstep s e hs hes.1
    have hrun := ih hs' hes.2
    rw [run_cons]
    constructor
    · intro h
      have hzero : ∀ i, loss s e i = 0 := by
        intro i
        have := hmono hs' hes.2 i
        have := hnext i
        have := h i
        omega
      refine ⟨hzero, hrun.mp fun i => ?_⟩
      rw [h i, hnext i, hzero i]
      simp
    · rintro ⟨hzero, hrest⟩ i
      rw [hrun.mpr hrest i, hnext i, hzero i]
      simp

end Pstream.Support
