import Mathlib.Logic.Relation
import Mathlib.Tactic.SplitIfs

/-!
# Computations with a state that may fail

In the source a method that returns an error leaves the changes it has made so
far.  Such a method is a computation whose state survives a failure.  The lemmas
here take a successful computation apart, and say when a computation avoids
certain failures.
-/

namespace Pstream.Support

variable {ε σ α β : Type} (x : EStateM ε σ α) (s : σ)

/-- The state after a computation, whether it fails or not. -/
def stateAfter : σ :=
  match x s with
  | .ok _ s' => s'
  | .error _ s' => s'

/-- The computation does not fail. -/
def Succeeds : Prop := ∃ a s', x s = .ok a s'

instance (x : EStateM ε σ α) (s : σ) : Decidable (Succeeds x s) :=
  match h : x s with
  | .ok a s' => isTrue ⟨a, s', h⟩
  | .error _ _ => isFalse fun ⟨_, _, hok⟩ => by
    rw [h] at hok
    cases hok

def failure : Option ε :=
  match x s with
  | .ok _ _ => none
  | .error e _ => some e

variable {x : EStateM ε σ α} {s s' : σ} {a : α} {f : α → EStateM ε σ β} {b : β} {e : ε}

theorem stateAfter_of_ok (h : x s = .ok a s') : stateAfter x s = s' := by
  rw [stateAfter, h]

theorem bind_ok : (x >>= f) s = .ok b s' ↔ ∃ a s₁, x s = .ok a s₁ ∧ f a s₁ = .ok b s' := by
  change EStateM.bind x f s = _ ↔ _
  unfold EStateM.bind
  cases x s with
  | ok a s₁ =>
    constructor
    · exact fun h => ⟨a, s₁, rfl, h⟩
    · rintro ⟨_, _, ⟨⟩, h⟩
      exact h
  | error => simp

theorem bind_of_ok (h : x s = .ok a s') : (x >>= f) s = f a s' := by
  change EStateM.bind x f s = _
  rw [EStateM.bind, h]

theorem bind_of_error (h : x s = .error e s') : (x >>= f) s = .error e s' := by
  change EStateM.bind x f s = _
  rw [EStateM.bind, h]

theorem get_bind (f : σ → EStateM ε σ α) (s : σ) : (get >>= f) s = f s s := rfl

theorem modify_bind (g : σ → σ) (f : PUnit → EStateM ε σ α) (s : σ) :
    ((modify g : EStateM ε σ PUnit) >>= f) s = f ⟨⟩ (g s) := rfl

@[simp] theorem pure_ok {b : α} : (pure a : EStateM ε σ α) s = .ok b s' ↔ a = b ∧ s = s' := by
  simp [pure, EStateM.pure]

@[simp] theorem get_ok {t : σ} : (get : EStateM ε σ σ) s = .ok t s' ↔ s = t ∧ s = s' := by
  change EStateM.Result.ok s s = .ok t s' ↔ _
  rw [EStateM.Result.ok.injEq]

@[simp] theorem modify_ok {f : σ → σ} {u : PUnit} :
    (modify f : EStateM ε σ PUnit) s = .ok u s' ↔ f s = s' := by
  change EStateM.Result.ok PUnit.unit (f s) = .ok u s' ↔ _
  simp

@[simp] theorem modifyGet_ok {f : σ → α × σ} :
    (modifyGet f : EStateM ε σ α) s = .ok a s' ↔ f s = (a, s') := by
  change EStateM.Result.ok (f s).1 (f s).2 = .ok a s' ↔ _
  rw [EStateM.Result.ok.injEq, Prod.ext_iff]

theorem map_ok {f : α → β} : (f <$> x) s = .ok b s' ↔ ∃ a, x s = .ok a s' ∧ f a = b := by
  rw [map_eq_pure_bind, bind_ok]
  constructor
  · rintro ⟨a, s₁, hx, hpure⟩
    obtain ⟨rfl, rfl⟩ := pure_ok.mp hpure
    exact ⟨a, hx, rfl⟩
  · rintro ⟨a, hx, rfl⟩
    exact ⟨a, s', hx, rfl⟩

@[simp] theorem throw_ok : (throw e : EStateM ε σ α) s = .ok a s' ↔ False := by
  change EStateM.Result.error e s = .ok a s' ↔ _
  simp

/-- Run a computation that has no state. -/
def lift (x : Except ε α) : EStateM ε σ α :=
  match x with
  | .ok a => pure a
  | .error e => throw e

@[simp] theorem lift_ok {x : Except ε α} :
    (lift x : EStateM ε σ α) s = .ok a s' ↔ x = .ok a ∧ s = s' := by
  cases x with
  | ok | error => simp [lift]

theorem except_ok_bind (a : α) (f : α → Except ε β) : (.ok a >>= f) = f a := rfl

theorem except_mapError_eq_ok {ε' : Type*} {x : Except ε α} {f : ε → ε'} :
    x.mapError f = .ok a ↔ x = .ok a := by
  cases x with
  | error | ok => simp [Except.mapError]

theorem except_bind_eq_ok {x : Except ε α} {f : α → Except ε β}
    (h : (x >>= f) = .ok b) : ∃ a, x = .ok a ∧ f a = .ok b := by
  rcases x with e | a
  · cases h
  · exact ⟨a, rfl, h⟩

theorem stateAfter_get_bind (f : σ → EStateM ε σ α) (s : σ) :
    stateAfter (get >>= f) s = stateAfter (f s) s := rfl

theorem stateAfter_modifyGet_bind (g : σ → β × σ) (f : β → EStateM ε σ α)
    (s : σ) : stateAfter ((modifyGet g : EStateM ε σ β) >>= f) s =
      stateAfter (f (g s).1) (g s).2 := rfl

theorem stateAfter_bind_of_ok (h : x s = .ok a s') :
    stateAfter (x >>= f) s = stateAfter (f a) s' := by
  rw [stateAfter, bind_of_ok h, stateAfter]

theorem stateAfter_bind_of_error (h : x s = .error e s') : stateAfter (x >>= f) s = s' := by
  rw [stateAfter, bind_of_error h]

/-- A sequence ends where its second part ends, or where its first part fails. -/
theorem stateAfter_bind (x : EStateM ε σ α) (f : α → EStateM ε σ β) (s : σ) :
    (∃ a s', x s = .ok a s' ∧ stateAfter x s = s' ∧ stateAfter (x >>= f) s = stateAfter (f a) s') ∨
      stateAfter (x >>= f) s = stateAfter x s := by
  cases h : x s with
  | ok a s' =>
    exact .inl ⟨a, s', rfl, stateAfter_of_ok h, stateAfter_bind_of_ok h⟩
  | error e s' =>
    refine .inr ?_
    rw [stateAfter_bind_of_error h, stateAfter, h]

/-! ## Avoiding failures -/

/-- Started in `s`, the computation has none of the failures in `bad`. -/
def Avoids (bad : ε → Prop) (x : EStateM ε σ α) (s : σ) : Prop := ∀ e s', x s = .error e s' → ¬bad e

variable {bad : ε → Prop}

theorem avoids_bind : Avoids bad (x >>= f) s ↔
      Avoids bad x s ∧ ∀ a s', x s = .ok a s' → Avoids bad (f a) s' := by
  have hbind : (x >>= f) s = match x s with
      | .ok a s' => f a s'
      | .error e s' => .error e s' := rfl
  unfold Avoids
  rw [hbind]
  cases x s with
  | ok | error => simp

theorem avoids_bind_of_ok (h : x s = .ok a s') : Avoids bad (x >>= f) s ↔ Avoids bad (f a) s' := by
  unfold Avoids
  rw [bind_of_ok h]

theorem avoids_bind_of_error (h : x s = .error e s') : Avoids bad (x >>= f) s ↔ ¬bad e := by
  unfold Avoids
  rw [bind_of_error h]
  simp

@[simp] theorem avoids_pure (a : α) (s : σ) : Avoids bad (pure a : EStateM ε σ α) s := by
  simp [Avoids, pure, EStateM.pure]

@[simp] theorem avoids_get (s : σ) : Avoids bad (get : EStateM ε σ σ) s := by
  intro e s' h
  cases h

@[simp] theorem avoids_set (s t : σ) : Avoids bad (set t : EStateM ε σ PUnit) s := by
  intro e s' h
  cases h

@[simp] theorem avoids_modify (f : σ → σ) (s : σ) :
    Avoids bad (modify f : EStateM ε σ PUnit) s := by
  intro e s' h
  cases h

@[simp] theorem avoids_modifyGet (f : σ → α × σ) (s : σ) :
    Avoids bad (modifyGet f : EStateM ε σ α) s := by
  intro e s' h
  cases h

@[simp] theorem avoids_throw (e : ε) (s : σ) : Avoids bad (throw e : EStateM ε σ α) s ↔ ¬bad e := by
  constructor
  · intro h
    exact h e s rfl
  · rintro h _ _ ⟨⟩
    exact h

@[simp] theorem avoids_map (f : α → β) (x : EStateM ε σ α) (s : σ) :
    Avoids bad (f <$> x) s ↔ Avoids bad x s := by
  rw [← bind_pure_comp, avoids_bind]
  simp

/-- The rule for a computation that always avoids the failures. -/
theorem Avoids.bind (hx : Avoids bad x s) (hf : ∀ a s', Avoids bad (f a) s') :
    Avoids bad (x >>= f) s :=
  avoids_bind.mpr ⟨hx, fun a s' _ => hf a s'⟩

theorem avoids_ite {c : Prop} [Decidable c] {y : EStateM ε σ α} (hx : Avoids bad x s)
    (hy : Avoids bad y s) : Avoids bad (if c then x else y) s := by
  split_ifs
  · exact hx
  · exact hy

/-! ## Values -/

/-- Every value of the computation has the property `Q`. -/
def Returns (Q : α → Prop) (x : EStateM ε σ α) : Prop := ∀ s a s', x s = .ok a s' → Q a

variable {Q : α → Prop}

theorem returns_pure (h : Q a) : Returns Q (pure a : EStateM ε σ α) := by
  intro s b s' hb
  exact (pure_ok.mp hb).1 ▸ h

theorem returns_throw (e : ε) : Returns Q (throw e : EStateM ε σ α) :=
  fun _ _ _ h => (throw_ok.mp h).elim

theorem Returns.bind {P : β → Prop} {x : EStateM ε σ β} {f : β → EStateM ε σ α} (hx : Returns P x)
    (hf : ∀ b, P b → Returns Q (f b)) : Returns Q (x >>= f) := by
  intro s a s' h
  obtain ⟨b, s₁, hb, h⟩ := bind_ok.mp h
  exact hf b (hx s b s₁ hb) s₁ a s' h

theorem returns_bind {x : EStateM ε σ β} {f : β → EStateM ε σ α}
    (hf : ∀ b, Returns Q (f b)) : Returns Q (x >>= f) :=
  Returns.bind (P := fun _ => True) (fun _ _ _ _ => trivial) fun b _ => hf b

theorem Returns.map {P : β → Prop} {x : EStateM ε σ β} {f : β → α}
    (hx : Returns P x) (hf : ∀ b, P b → Q (f b)) : Returns Q (f <$> x) := by
  exact hx.bind fun b hb => returns_pure (hf b hb)

theorem returns_map {x : EStateM ε σ β} {f : β → α} (hf : ∀ b, Q (f b)) : Returns Q (f <$> x) :=
  Returns.map (P := fun _ => True) (fun _ _ _ _ => trivial) fun b _ => hf b

theorem returns_ite {c : Prop} [Decidable c] {y : EStateM ε σ α}
    (hx : Returns Q x) (hy : Returns Q y) : Returns Q (if c then x else y) := by
  split_ifs
  · exact hx
  · exact hy

/-! ## Invariants -/

section Preserves

variable {I : σ → Prop}

/-- Whether it fails or not, the computation keeps `I`. -/
def Preserves (I : σ → Prop) (x : EStateM ε σ α) : Prop := ∀ s, I s → I (stateAfter x s)

theorem preserves_pure (a : α) : Preserves I (pure a : EStateM ε σ α) := fun _ hs => hs

theorem preserves_get : Preserves I (get : EStateM ε σ σ) := fun _ hs => hs

theorem preserves_throw (e : ε) : Preserves I (throw e : EStateM ε σ α) := fun _ hs => hs

theorem preserves_modify {f : σ → σ} (h : ∀ s, I s → I (f s)) :
    Preserves I (modify f : EStateM ε σ PUnit) := h

theorem preserves_modifyGet {f : σ → α × σ} (h : ∀ s, I s → I (f s).2) :
    Preserves I (modifyGet f : EStateM ε σ α) := h

variable {x : EStateM ε σ α} {f : α → EStateM ε σ β}

/-- What holds after the first part of a sequence and is kept by its second part
holds at its end. -/
theorem stateAfter_bind_of {s : σ} (hx : I (stateAfter x s))
    (hf : ∀ a, Preserves I (f a)) : I (stateAfter (x >>= f) s) := by
  rcases stateAfter_bind x f s with ⟨a, s', -, hafter, hbind⟩ | hbind
  · rw [hbind]
    exact hf a s' (hafter ▸ hx)
  · rwa [hbind]

theorem preserves_lift (x : Except ε α) : Preserves I (lift x : EStateM ε σ α) := by
  cases x with
  | ok a => exact preserves_pure a
  | error e => exact preserves_throw e

theorem preserves_ite {c : Prop} [Decidable c] {y : EStateM ε σ α} (hx : Preserves I x)
    (hy : Preserves I y) : Preserves I (if c then x else y) := by
  split_ifs
  · exact hx
  · exact hy

theorem preserves_get_bind {f : σ → EStateM ε σ α}
    (hf : ∀ s, I s → Preserves I (f s)) : Preserves I (get >>= f) :=
  fun s hs => hf s hs s hs

theorem Preserves.map (hx : Preserves I x) (f : α → β) : Preserves I (f <$> x) := by
  intro s hs
  exact stateAfter_bind_of (hx s hs) fun a => preserves_pure (f a)

theorem Preserves.bind (hx : Preserves I x) (hf : ∀ a, Preserves I (f a)) : Preserves I (x >>= f) :=
  fun s hs => stateAfter_bind_of (hx s hs) hf

end Preserves

/-! ## Elementary steps -/

section Evolves

variable {τ : Type*} {step : τ → τ → Prop} {view : σ → τ}

open Relation

/-- Whether it fails or not, the computation takes what `view` shows of the state
through any number of steps. -/
def Evolves (step : τ → τ → Prop) (view : σ → τ) (x : EStateM ε σ α) : Prop :=
  ∀ s, ReflTransGen step (view s) (view (stateAfter x s))

theorem evolves_pure (a : α) : Evolves step view (pure a : EStateM ε σ α) := fun _ => .refl

theorem evolves_get : Evolves step view (get : EStateM ε σ σ) := fun _ => .refl

theorem evolves_throw (e : ε) : Evolves step view (throw e : EStateM ε σ α) := fun _ => .refl

theorem evolves_modify {f : σ → σ} (h : ∀ s, ReflTransGen step (view s) (view (f s))) :
    Evolves step view (modify f : EStateM ε σ PUnit) := h

theorem evolves_modifyGet {f : σ → α × σ} (h : ∀ s, ReflTransGen step (view s) (view (f s).2)) :
    Evolves step view (modifyGet f : EStateM ε σ α) := h

theorem evolves_modify_of_eq {f : σ → σ} (h : ∀ s, view (f s) = view s) :
    Evolves step view (modify f : EStateM ε σ PUnit) := by
  refine evolves_modify fun s => ?_
  rw [h s]

theorem evolves_modifyGet_of_eq {f : σ → α × σ} (h : ∀ s, view (f s).2 = view s) :
    Evolves step view (modifyGet f : EStateM ε σ α) := by
  refine evolves_modifyGet fun s => ?_
  rw [h s]

variable {x : EStateM ε σ α}

theorem Evolves.bind_returns {P : α → Prop} {f : α → EStateM ε σ β} (hx : Evolves step view x)
    (hP : Returns P x) (hf : ∀ a, P a → Evolves step view (f a)) : Evolves step view (x >>= f) := by
  intro s
  rcases stateAfter_bind x f s with ⟨a, s', h, hafter, hbind⟩ | hbind
  · have hstep := hx s
    rw [hafter] at hstep
    rw [hbind]
    exact hstep.trans (hf a (hP s a s' h) s')
  · rw [hbind]
    exact hx s

theorem Evolves.bind {f : α → EStateM ε σ β} (hx : Evolves step view x)
    (hf : ∀ a, Evolves step view (f a)) : Evolves step view (x >>= f) :=
  hx.bind_returns (P := fun _ => True) (fun _ _ _ _ => trivial) fun a _ => hf a

theorem evolves_modify_bind {f : σ → σ} {y : PUnit → EStateM ε σ β} (h : ∀ s, view (f s) = view s)
    (hy : Evolves step view (y ⟨⟩)) : Evolves step view (modify f >>= y) :=
  (evolves_modify_of_eq h).bind fun _ => hy

theorem evolves_ite {c : Prop} [Decidable c] {y : EStateM ε σ α} (hx : Evolves step view x)
    (hy : Evolves step view y) : Evolves step view (if c then x else y) := by
  split_ifs
  · exact hx
  · exact hy

end Evolves

end Pstream.Support
