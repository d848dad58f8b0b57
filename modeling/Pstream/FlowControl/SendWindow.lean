import Pstream.FlowControl.Run

/-!
# The send window

The effective send window of a stream or of the connection is the one of the last
WINDOW_UPDATE frame that raised it, and before the first one the negotiated window.
An update is compared with the stored window only, which is 0 before the first
update, so the first one may lower the effective window.
-/

namespace Pstream.FlowControl

open Support FlowController

namespace FlowController

variable {c c' : FlowController}

/-- What the effective send window depends on. -/
def SameSendWindow (c c' : FlowController) : Prop :=
  c'.streamID = c.streamID ∧ c'.sendWindow = c.sendWindow

theorem SameSendWindow.trans {c₁ c₂ c₃ : FlowController} (h₁ : SameSendWindow c₁ c₂)
    (h₂ : SameSendWindow c₂ c₃) : SameSendWindow c₁ c₃ :=
  ⟨h₂.1.trans h₁.1, h₂.2.trans h₁.2⟩

theorem SameSendWindow.sendWindowOffset_eq (h : SameSendWindow c c') (p : ConnectionParameters) :
    c'.sendWindowOffset p = c.sendWindowOffset p := by
  simp only [sendWindowOffset, getSendWindow, negotiatedWindow, h.1, h.2]

theorem sameSendWindow_count (k : Count) : SameSendWindow c (k.apply c) := by
  cases k with
  | updateHighestReceived byteOffset =>
    rw [Count.apply, updateHighestReceived_eq]
    exact ⟨rfl, rfl⟩
  | _ => exact ⟨rfl, rfl⟩

theorem sameSendWindow_tunes (h : Tunes c c') : SameSendWindow c c' := by
  cases h with
  | maybeUpdateWindow t =>
    rcases c.maybeUpdateWindow_eq t with heq | ⟨-, inc, -, heq⟩ <;> rw [heq] <;> exact ⟨rfl, rfl⟩
  | ensureMinimumWindowIncrement inc =>
    rcases c.ensureMinimumWindowIncrement_eq inc with heq | heq <;> rw [heq] <;> exact ⟨rfl, rfl⟩

theorem sameSendWindow_reflTransGen (h : Relation.ReflTransGen Tunes c c') :
    SameSendWindow c c' := by
  induction h with
  | refl => exact ⟨rfl, rfl⟩
  | tail _ hlast ih => exact ih.trans (sameSendWindow_tunes hlast)

/-- An update lowers the effective send window exactly if it is the first one and
below the negotiated window. -/
theorem sendWindowOffset_updateSendWindow (p : ConnectionParameters) (newOffset : ℕ) :
    c.sendWindowOffset p ≤ (c.updateSendWindow newOffset).1.sendWindowOffset p ↔
      c.sendWindow ≠ 0 ∨ newOffset = 0 ∨ c.negotiatedWindow p ≤ newOffset := by
  unfold updateSendWindow sendWindowOffset getSendWindow
  by_cases hlt : c.sendWindow < newOffset
  · have hne : newOffset ≠ 0 := Nat.ne_zero_of_lt hlt
    rw [if_pos hlt]
    rw [if_neg hne]
    by_cases hzero : c.sendWindow = 0
    · simp [hzero, hne]
    · simp [hzero, Nat.le_of_lt hlt]
  · rw [if_neg hlt]
    dsimp only
    omega

end FlowController

namespace Manager

def KeepsSendWindows (multiplied : ℕ → ℕ) (f : Manager) (e : Event) : Prop :=
  ∀ key c c', f.controller key = some c → (f.step multiplied e).controller key = some c' →
    c.sendWindowOffset f.connectionParameters ≤ c'.sendWindowOffset f.connectionParameters

/-- The first update of a send window that is not for the offset 0 is not below
the negotiated window. -/
def RaisesNegotiated (f : Manager) (e : Event) : Prop :=
  ∀ streamID offset c, e = .updateWindow streamID offset → f.controller (keyOf streamID) = some c →
    c.sendWindow ≠ 0 ∨ offset = 0 ∨ c.negotiatedWindow f.connectionParameters ≤ offset

theorem controller_updateWindow {f : Manager} {c : FlowController} {streamID : ℕ}
    (hc : f.controller (keyOf streamID) = some c) (offset : ℕ) :
    (f.updateWindow streamID offset).1.controller (keyOf streamID) =
      some (c.updateSendWindow offset).1 := by
  unfold updateWindow
  unfold keyOf at hc ⊢
  by_cases hzero : streamID = 0
  · rw [if_pos hzero] at hc ⊢
    rw [if_pos hzero]
    cases hc
    rfl
  · rw [if_neg hzero] at hc ⊢
    rw [if_neg hzero]
    rw [controller_some] at hc
    simp [hc, setController]

/-- One event lowers no send window exactly if it is not a first update below the
negotiated window. -/
theorem keepsSendWindows_iff (multiplied : ℕ → ℕ) (f : Manager) (e : Event) :
    f.KeepsSendWindows multiplied e ↔ f.RaisesNegotiated e := by
  constructor
  · rintro hkeeps streamID offset c rfl hc
    have hle := hkeeps _ _ _ hc (controller_updateWindow hc offset)
    exact (sendWindowOffset_updateSendWindow _ offset).mp hle
  · intro hraises key c c' hc hc'
    rcases (step_controller multiplied e).2 key c' hc' with
      ⟨c₀, hc₀, hevolves⟩ | ⟨hnone, -⟩
    · obtain rfl : c₀ = c := Option.some.inj (hc₀.symm.trans hc)
      cases hevolves with
      | count k hk =>
        exact Nat.le_of_eq ((sameSendWindow_count k).sendWindowOffset_eq _).symm
      | tune h =>
        exact Nat.le_of_eq ((sameSendWindow_reflTransGen h).sendWindowOffset_eq _).symm
      | window streamID offset he hkey =>
        rw [sendWindowOffset_updateSendWindow]
        exact hraises streamID offset c₀ he (hkey ▸ hc)
    · simp [hnone] at hc

/-- In a run of the manager no effective send window is ever lowered exactly if
the first update of each window is not below the negotiated one. -/
theorem run_keepsSendWindows_iff (multiplied : ℕ → ℕ) (p : ConnectionParameters)
    (events : List Event) :
    AllSteps (step multiplied) (KeepsSendWindows multiplied) (newFlowControlManager p) events ↔
      AllSteps (step multiplied) RaisesNegotiated (newFlowControlManager p)
        events := by
  constructor
  · intro h
    exact h.mono fun f e => (keepsSendWindows_iff multiplied f e).mp
  · intro h
    exact h.mono fun f e => (keepsSendWindows_iff multiplied f e).mpr

/-- Reordered updates above the negotiated window of 0x4000. -/
theorem run_keepsSendWindows_reordered :
    let p : ConnectionParameters := ⟨0x4000, 0x8000, 0x8000, 0xC000, 0x100000, 0x180000⟩
    let events : List Event := [.newStream 5 true, .updateWindow 5 0x6000, .updateWindow 5 0x5000]
    AllSteps (step id) RaisesNegotiated (newFlowControlManager p) events ∧
      AllSteps (step id) (KeepsSendWindows id) (newFlowControlManager p)
        events := by
  intro p events
  have hraises : AllSteps (step id) RaisesNegotiated (newFlowControlManager p) events := by
    refine ⟨?_, ?_, ?_, trivial⟩
    · rintro streamID offset c ⟨⟩
    · rintro streamID offset c ⟨⟩ hc
      cases hc
      exact Or.inr (Or.inr (by decide))
    · rintro streamID offset c ⟨⟩ hc
      cases hc
      exact Or.inl (by decide)
  exact ⟨hraises, (run_keepsSendWindows_iff id p events).mpr hraises⟩

/-- The first WINDOW_UPDATE frame for the connection announces an offset of 1,
which lowers the negotiated window of 0x8000. -/
theorem updateWindow_lowers :
    let p : ConnectionParameters := ⟨0x4000, 0x8000, 0x8000, 0xC000, 0x100000, 0x180000⟩
    let f := newFlowControlManager p
    let f' := f.step id (.updateWindow 0 1)
    f.connFlowController.sendWindowOffset p = 0x8000 ∧
      f'.connFlowController.sendWindowOffset p = 1 ∧
      ¬AllSteps (step id) (KeepsSendWindows id) f [.updateWindow 0 1] := by
  intro p f f'
  refine ⟨by decide, by decide, fun h => ?_⟩
  have hle := h.1 none f.connFlowController f'.connFlowController rfl rfl
  exact absurd hle (by decide)

end Manager

end Pstream.FlowControl
