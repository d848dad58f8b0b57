import Pstream.FlowControl.FlowControlManager
import Pstream.Support.Run

/-!
# Runs of the flow control manager

The calls on the manager as events, and what one event can do to a flow
controller: it counts some bytes, tunes the receive window, or sets the send
window.
-/

namespace Pstream.FlowControl

open Support

/-- The controllers of a manager: `none` is the connection. -/
abbrev Key := Option ℕ

/-- The controller that `UpdateWindow` addresses. -/
def keyOf (streamID : ℕ) : Key := if streamID = 0 then none else some streamID

namespace Manager

def controller (f : Manager) : Key → Option FlowController
  | none => some f.connFlowController
  | some streamID => f.streamFlowController streamID

/-- The calls on the manager that change it. -/
inductive Event
  | newStream (streamID : ℕ) (contributesToConnection : Bool)
  | removeStream (streamID : ℕ)
  | resetStream (streamID byteOffset : ℕ)
  | updateHighestReceived (streamID byteOffset : ℕ)
  | addBytesRead (now : ℤ) (streamID n : ℕ)
  | getWindowUpdates (t : Timing) (order : List ℕ) (force : Bool)
  | addBytesSent (streamID n : ℕ)
  | addBytesRetrans (streamID n : ℕ)
  | updateWindow (streamID offset : ℕ)

def step (multiplied : ℕ → ℕ) (f : Manager) : Event → Manager
  | .newStream streamID contributes => f.newStream streamID contributes
  | .removeStream streamID => f.removeStream streamID
  | .resetStream streamID byteOffset => (f.resetStream streamID byteOffset).1
  | .updateHighestReceived streamID byteOffset =>
    (f.updateHighestReceived streamID byteOffset).1
  | .addBytesRead now streamID n => f.addBytesRead now streamID n
  | .getWindowUpdates t order force =>
    (f.getWindowUpdates multiplied t order force).2
  | .addBytesSent streamID n => f.addBytesSent streamID n
  | .addBytesRetrans streamID n => f.addBytesRetrans streamID n
  | .updateWindow streamID offset => (f.updateWindow streamID offset).1

/-- How many bytes an event reports as read. -/
def Event.readBytes : Event → ℕ
  | .addBytesRead _ _ n => n
  | _ => 0

end Manager

/-! ## What happens to a controller -/

/-- The methods of a controller that only count. -/
inductive Count
  | addBytesSent (n : ℕ)
  | addBytesRetrans (n : ℕ)
  | updateHighestReceived (byteOffset : ℕ)
  | incrementHighestReceived (increment : ℕ)
  | addBytesRead (now : ℤ) (n : ℕ)

def Count.apply (c : FlowController) : Count → FlowController
  | .addBytesSent n => c.addBytesSent n
  | .addBytesRetrans n => c.addBytesRetrans n
  | .updateHighestReceived byteOffset =>
    (c.updateHighestReceived byteOffset).1
  | .incrementHighestReceived increment =>
    c.incrementHighestReceived increment
  | .addBytesRead now n => c.addBytesRead now n

def Count.readBytes : Count → ℕ
  | .addBytesRead _ n => n
  | _ => 0

/-- One call that tunes the receive window. -/
inductive Tunes : FlowController → FlowController → Prop
  | maybeUpdateWindow (c : FlowController) (t : Timing) : Tunes c (c.maybeUpdateWindow t).1
  | ensureMinimumWindowIncrement (c : FlowController) (inc : ℕ) :
      Tunes c (c.ensureMinimumWindowIncrement inc)

/-- What one event does to the controller with the given key. -/
inductive Evolves (e : Manager.Event) (key : Key) (c : FlowController) : FlowController → Prop
  | count (k : Count) (hk : k.readBytes ≤ e.readBytes) : Evolves e key c (k.apply c)
  | tune {c' : FlowController} (h : Relation.ReflTransGen Tunes c c') : Evolves e key c c'
  | window (streamID offset : ℕ) (he : e = .updateWindow streamID offset)
      (hkey : key = keyOf streamID) :
      Evolves e key c (c.updateSendWindow offset).1

theorem Evolves.refl (e : Manager.Event) (key : Key) (c : FlowController) : Evolves e key c c :=
  .tune .refl

namespace Manager

variable {f : Manager} {c : FlowController} {key : Key} {streamID : ℕ}

@[simp] theorem controller_none : f.controller none = some f.connFlowController := rfl

@[simp] theorem controller_some : f.controller (some streamID) = f.streamFlowController streamID :=
  rfl

theorem controller_setController :
    (f.setController streamID c).controller key =
      if key = some streamID then some c else f.controller key := by
  cases key with
  | none => simp [setController]
  | some => simp [setController, Function.update_apply]

theorem controller_setConn (f : Manager) (conn : FlowController) (key : Key) :
    Manager.controller { f with connFlowController := conn } key =
      if key = none then some conn else f.controller key := by
  cases key <;> simp [controller]

/-- Every controller of `f'` has come from one of `f` by a change that `R`
allows. -/
def Follows (R : Key → FlowController → FlowController → Prop) (f f' : Manager) : Prop :=
  f'.connectionParameters = f.connectionParameters ∧ ∀ key c', f'.controller key = some c' →
      ∃ c, f.controller key = some c ∧ R key c c'

variable {R : Key → FlowController → FlowController → Prop} {f' f₁ f₂ f₃ : Manager}

theorem follows_of_controller_eq (hrefl : ∀ key c, R key c c)
    (hparams : f'.connectionParameters = f.connectionParameters)
    (h : ∀ key c', f'.controller key = some c' → f.controller key = some c') : Follows R f f' :=
  ⟨hparams, fun key c' hc' => ⟨c', h key c' hc', hrefl key c'⟩⟩

theorem Follows.trans (htrans : ∀ key c₁ c₂ c₃, R key c₁ c₂ → R key c₂ c₃ → R key c₁ c₃)
    (h₁ : Follows R f₁ f₂) (h₂ : Follows R f₂ f₃) : Follows R f₁ f₃ := by
  refine ⟨h₂.1.trans h₁.1, fun key c₃ hc₃ => ?_⟩
  obtain ⟨c₂, hc₂, h₂₃⟩ := h₂.2 key c₃ hc₃
  obtain ⟨c₁, hc₁, h₁₂⟩ := h₁.2 key c₂ hc₂
  exact ⟨c₁, hc₁, htrans key c₁ c₂ c₃ h₁₂ h₂₃⟩

theorem Follows.mono {S : Key → FlowController → FlowController → Prop}
    (hRS : ∀ key c c', R key c c' → S key c c') (h : Follows R f f') : Follows S f f' := by
  refine ⟨h.1, fun key c' hc' => ?_⟩
  obtain ⟨c, hc, hcc'⟩ := h.2 key c' hc'
  exact ⟨c, hc, hRS key c c' hcc'⟩

theorem follows_setController (hrefl : ∀ key c, R key c c) {c' conn' : FlowController}
    (hc : f.streamFlowController streamID = some c) (hstream : R (some streamID) c c')
    (hconn : R none f.connFlowController conn') :
    Follows R f { f.setController streamID c' with connFlowController := conn' } := by
  refine ⟨rfl, fun key c₁ hc₁ => ?_⟩
  rw [controller_setConn, controller_setController] at hc₁
  split_ifs at hc₁ with hnone hsome
  · cases hc₁
    exact ⟨f.connFlowController, by rw [hnone]; rfl, hnone ▸ hconn⟩
  · cases hc₁
    exact ⟨c, by rw [hsome]; exact hc, hsome ▸ hstream⟩
  · exact ⟨c₁, hc₁, hrefl key c₁⟩

section Step

variable (e : Event)

theorem follows_count (add : FlowController → ℕ → FlowController) (op : ℕ → Count)
    (hop : ∀ c n, (op n).apply c = add c n) {n : ℕ} (hn : (op n).readBytes ≤ e.readBytes) :
    Follows (Evolves e) f (f.count add streamID n) := by
  have hadd : ∀ key c, Evolves e key c (add c n) := by
    intro key c
    rw [← hop]
    exact .count (op n) hn
  unfold count
  cases hc : f.streamFlowController streamID with
  | none => exact follows_of_controller_eq (Evolves.refl e) rfl fun _ _ h => h
  | some c =>
    dsimp only
    split_ifs
    · exact follows_setController (Evolves.refl e) hc (hadd _ c) (hadd _ _)
    · exact follows_setController (Evolves.refl e) hc (hadd _ c) (Evolves.refl e _ _)

theorem follows_countReceived {c' : FlowController} (hc : f.streamFlowController streamID = some c)
    (byteOffset increment : ℕ) (hc' : Evolves e (some streamID) c c') :
    Follows (Evolves e) f (f.countReceived streamID byteOffset c' increment).1 := by
  have hkept := Evolves.refl e none f.connFlowController
  unfold countReceived
  split_ifs
  · exact follows_setController (Evolves.refl e) hc hc' hkept
  · exact follows_setController (Evolves.refl e) hc hc'
      (.count (.incrementHighestReceived increment) (Nat.zero_le _))
  · exact follows_setController (Evolves.refl e) hc hc' hkept

theorem follows_resetStream (byteOffset : ℕ) :
    Follows (Evolves e) f (f.resetStream streamID byteOffset).1 := by
  unfold resetStream
  cases hc : f.streamFlowController streamID with
  | none => exact follows_of_controller_eq (Evolves.refl e) rfl fun _ _ h => h
  | some c =>
    have hc' : Evolves e (some streamID) c (c.updateHighestReceived byteOffset).1 :=
      .count (.updateHighestReceived byteOffset) (Nat.zero_le _)
    dsimp only
    split
    next => exact follows_of_controller_eq (Evolves.refl e) rfl fun _ _ h => h
    next c₁ increment heq =>
      rw [heq] at hc'
      exact follows_countReceived e hc byteOffset increment hc'

theorem follows_updateHighestReceived (f : Manager) (streamID byteOffset : ℕ) :
    Follows (Evolves e) f (f.updateHighestReceived streamID byteOffset).1 := by
  unfold updateHighestReceived
  cases hc : f.streamFlowController streamID with
  | none => exact follows_of_controller_eq (Evolves.refl e) rfl fun _ _ h => h
  | some c =>
    have hc' : Evolves e (some streamID) c (c.updateHighestReceived byteOffset).1 :=
      .count (.updateHighestReceived byteOffset) (Nat.zero_le _)
    dsimp only
    split_ifs
    · exact follows_countReceived (f := { f with
        numOutofOrder := f.numOutofOrder + 1 }) e hc byteOffset _ hc'
    · exact follows_countReceived e hc byteOffset _ hc'

theorem follows_updateWindow (offset : ℕ) :
    Follows (Evolves (.updateWindow streamID offset)) f (f.updateWindow streamID offset).1 := by
  have hrefl := Evolves.refl (.updateWindow streamID offset)
  unfold updateWindow
  split_ifs with hzero
  · refine ⟨rfl, fun key c' hc' => ?_⟩
    rw [controller_setConn] at hc'
    split_ifs at hc' with hnone
    · cases hc'
      refine ⟨f.connFlowController, by rw [hnone]; rfl, ?_⟩
      exact .window streamID offset rfl (by rw [hnone, keyOf, if_pos hzero])
    · exact ⟨c', hc', hrefl key c'⟩
  · cases hc : f.streamFlowController streamID with
    | none => exact follows_of_controller_eq hrefl rfl fun _ _ h => h
    | some c =>
      refine follows_setController hrefl hc ?_ (hrefl none _)
      exact .window streamID offset rfl (by rw [keyOf, if_neg hzero])

end Step

/-! ## Window updates -/

/-- Tuning, any number of times. -/
def Tuned (_ : Key) : FlowController → FlowController → Prop := Relation.ReflTransGen Tunes

theorem tuned_refl (key : Key) (c : FlowController) : Tuned key c c := .refl

variable (multiplied : ℕ → ℕ) (t : Timing) (force : Bool)

theorem follows_updateStreamWindow (streamID : ℕ) (f : Manager) :
    Follows Tuned f (f.updateStreamWindow multiplied t force streamID).2 := by
  unfold updateStreamWindow
  cases hc : f.streamFlowController streamID with
  | none => exact follows_of_controller_eq tuned_refl rfl fun _ _ h => h
  | some c =>
    have hc' : Tuned (some streamID) c (c.maybeUpdateWindow t).1 := .single (.maybeUpdateWindow c t)
    have hkept := tuned_refl none f.connFlowController
    dsimp only
    split_ifs
    · exact follows_setController tuned_refl hc hc' (.single (.ensureMinimumWindowIncrement _ _))
    · exact follows_setController tuned_refl hc hc' hkept
    · exact follows_setController tuned_refl hc hc' hkept

theorem Follows.tuned_trans (h₁ : Follows Tuned f₁ f₂) (h₂ : Follows Tuned f₂ f₃) :
    Follows Tuned f₁ f₃ :=
  Follows.trans (fun _ _ _ _ => Relation.ReflTransGen.trans) h₁ h₂

theorem follows_updateStreamWindows (order : List ℕ) (f : Manager) :
    Follows Tuned f (updateStreamWindows multiplied t force order f).2 := by
  induction order generalizing f with
  | nil => exact follows_of_controller_eq tuned_refl rfl fun _ _ h => h
  | cons streamID order ih =>
    have hfirst := follows_updateStreamWindow multiplied t force streamID f
    exact hfirst.tuned_trans (ih _)

theorem follows_setConn {conn : FlowController} (h : Tuned none f.connFlowController conn) :
    Follows Tuned f { f with connFlowController := conn } := by
  refine ⟨rfl, fun key c' hc' => ?_⟩
  rw [controller_setConn] at hc'
  split_ifs at hc' with hnone
  · cases hc'
    exact ⟨f.connFlowController, by rw [hnone]; rfl, h⟩
  · exact ⟨c', hc', .refl⟩

theorem follows_getWindowUpdates (order : List ℕ) (force : Bool) (f : Manager) :
    Follows Tuned f (f.getWindowUpdates multiplied t order force).2 := by
  have hstreams := follows_updateStreamWindows multiplied t force order f
  exact hstreams.tuned_trans (follows_setConn (.single (.maybeUpdateWindow _ t)))

/-! ## One event -/

/-- What one event does to a manager: its controllers evolve, and `NewStream` may
add one. -/
theorem step_controller (e : Event) :
    (f.step multiplied e).connectionParameters = f.connectionParameters ∧
      ∀ key c', (f.step multiplied e).controller key = some c' →
        (∃ c, f.controller key = some c ∧ Evolves e key c c') ∨
          (f.controller key = none ∧ ∃ streamID contributes, key = some streamID ∧
              c' = newFlowController streamID contributes f.connectionParameters) := by
  have hfollows : ∀ {f'}, Follows (Evolves e) f f' →
      f'.connectionParameters = f.connectionParameters ∧ ∀ key c', f'.controller key = some c' →
          (∃ c, f.controller key = some c ∧ Evolves e key c c') ∨
            (f.controller key = none ∧ ∃ streamID contributes, key = some streamID ∧
                c' = newFlowController streamID contributes f.connectionParameters) :=
    fun h => ⟨h.1, fun key c' hc' => .inl (h.2 key c' hc')⟩
  cases e with
  | newStream streamID contributes =>
    dsimp only [step]
    unfold newStream
    split
    next =>
      exact hfollows (follows_of_controller_eq (Evolves.refl _) rfl fun _ _ h => h)
    next hnone =>
      refine ⟨rfl, fun key c' hc' => ?_⟩
      rw [controller_setController] at hc'
      split_ifs at hc' with hkey
      · cases hc'
        exact .inr ⟨by rw [hkey]; exact hnone, streamID, contributes, hkey, rfl⟩
      · exact .inl ⟨c', hc', Evolves.refl _ _ _⟩
  | removeStream streamID =>
    apply hfollows
    refine follows_of_controller_eq (Evolves.refl _) rfl fun key c' hc' => ?_
    cases key with
    | none => exact hc'
    | some id =>
      have hc' : Function.update f.streamFlowController streamID none id = some c' := hc'
      rw [Function.update_apply] at hc'
      split_ifs at hc'
      exact hc'
  | resetStream streamID byteOffset =>
    exact hfollows (follows_resetStream _ byteOffset)
  | updateHighestReceived streamID byteOffset =>
    exact hfollows (follows_updateHighestReceived _ f streamID byteOffset)
  | addBytesRead now streamID n =>
    exact hfollows (follows_count _ (fun c n => c.addBytesRead now n)
      (.addBytesRead now) (fun _ _ => rfl) le_rfl)
  | getWindowUpdates t order force =>
    exact hfollows ((follows_getWindowUpdates multiplied t order force f).mono
      fun _ _ _ h => .tune h)
  | addBytesSent streamID n =>
    exact hfollows (follows_count _ FlowController.addBytesSent
      .addBytesSent (fun _ _ => rfl) le_rfl)
  | addBytesRetrans streamID n =>
    exact hfollows (follows_count _ FlowController.addBytesRetrans
      .addBytesRetrans (fun _ _ => rfl) le_rfl)
  | updateWindow streamID offset =>
    exact hfollows (follows_updateWindow offset)

end Manager

end Pstream.FlowControl
