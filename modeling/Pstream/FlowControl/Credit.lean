import Pstream.FlowControl.Accounting

/-!
# Connection credit

A byte that a stream has received takes credit from the connection, and reading the
byte gives it back.  When a stream is removed, what has not been read by then, or has
been read after the peer reset the stream, is never given back.
-/

namespace Pstream.FlowControl

open Option Pstream.Stream Support Wire

namespace Receiver

variable {s : Receiver}

/-- What the connection should have got back on account of a stream: what has been
read, and all of it once the stream has been removed. -/
def credit (s : Receiver) (streamID : ℕ) : ℕ :=
  (s.removed streamID).elim ((s.manager.streamFlowController streamID).elim 0
      (contribution (·.bytesRead)))
    (contribution (·.highestReceived))

def NoLeak (s : Receiver) : Prop :=
  s.manager.connFlowController.bytesRead = ∑ streamID ∈ s.created, s.credit streamID

instance NoLeak.instDecidable (s : Receiver) : Decidable s.NoLeak :=
  inferInstanceAs (Decidable (_ = _))

/-- A stream that is removed has been read to the end of what it has received before
the peer has reset it. -/
def ReadInFull (s : Receiver) : Event → Prop
  | .removeStream streamID =>
    ∀ c ∈ s.manager.streamFlowController streamID, c.contributesToConnection = true →
        s.readBeforeReset streamID = c.highestReceived
  | _ => True

instance ReadInFull.instDecidable (s : Receiver) : ∀ e, Decidable (s.ReadInFull e)
  | .removeStream streamID =>
    inferInstanceAs (Decidable (∀ c ∈ s.manager.streamFlowController streamID,
        c.contributesToConnection = true → s.readBeforeReset streamID = c.highestReceived))
  | .newStream _ _ | .reader _ _ | .call _ _ | .resetStream _ _ | .getWindowUpdates _ _ _ =>
    isTrue trivial

theorem Sound.read_le_credit (h : s.Sound) (streamID : ℕ) :
    (s.account streamID).elim 0 (contribution (·.bytesRead)) ≤ s.credit streamID := by
  unfold account credit
  cases hremoved : s.removed streamID with
  | none => rw [or_none, elim_none]
  | some c =>
    have hle := h.removed_le streamID c hremoved
    rw [h.removed_once streamID c hremoved, none_or, elim_some,
      elim_some, contribution, contribution]
    split_ifs
    · exact hle
    · exact le_rfl

/-- Nothing has leaked exactly if all removed streams had been read in full. -/
theorem Sound.noLeak_iff (h : s.Sound) : s.NoLeak ↔ ∀ id c, s.removed id = some c →
      c.contributesToConnection = true → c.bytesRead = c.highestReceived := by
  unfold NoLeak
  rw [h.bytesRead]
  unfold total
  rw [Finset.sum_eq_sum_iff_of_le fun id _ => h.read_le_credit id]
  constructor
  · intro hall id c hc hcontributes
    have haccount : s.account id = some c := by
      unfold account
      rw [h.removed_once id c hc, none_or, hc]
    have hmem : id ∈ s.created := by
      rw [h.created, haccount, isSome_some]
    have hequal := hall id hmem
    unfold credit at hequal
    rwa [haccount, hc, elim_some, elim_some,
      contribution_of_contributes _ hcontributes,
      contribution_of_contributes _ hcontributes] at hequal
  · intro hall id _
    unfold account credit
    cases hremoved : s.removed id with
    | none => rw [or_none, elim_none]
    | some c =>
      rw [h.removed_once id c hremoved, none_or, elim_some, elim_some]
      by_cases hcontributes : c.contributesToConnection = true
      · rw [contribution_of_contributes _ hcontributes, contribution_of_contributes _ hcontributes]
        exact hall id c hremoved hcontributes
      · rw [contribution_of_not _ hcontributes, contribution_of_not _ hcontributes]

theorem removed_step (multiplied : ℕ → ℕ) {e : Event} (he : ∀ id, e ≠ .removeStream id) :
    (s.step multiplied e).removed = s.removed := by
  cases e with
  | newStream streamID contributes =>
    dsimp only [step]
    cases s.manager.streamFlowController streamID <;> rfl
  | reader streamID e =>
    dsimp only [step]
    cases s.readers streamID <;> rfl
  | call streamID call =>
    dsimp only [step]
    cases s.readers streamID <;> rfl
  | resetStream | getWindowUpdates => rfl
  | removeStream streamID => exact absurd rfl (he streamID)

/-- From a state without a leak, one event leaks credit unless the stream that it
removes has been read in full. -/
theorem Sound.noLeak_step (h : s.Sound) (hleak : s.NoLeak) (multiplied : ℕ → ℕ) {e : Event}
    (hnext : (s.step multiplied e).Sound) : (s.step multiplied e).NoLeak ↔ s.ReadInFull e := by
  rw [h.noLeak_iff] at hleak
  rw [hnext.noLeak_iff]
  by_cases he : ∀ id, e ≠ .removeStream id
  · rw [removed_step multiplied he]
    refine iff_of_true hleak ?_
    cases e with
    | removeStream id => exact absurd rfl (he id)
    | _ => trivial
  · obtain ⟨streamID, rfl⟩ : ∃ id, e = .removeStream id := by simpa using he
    have hremoved : ∀ id, (s.step multiplied (.removeStream streamID)).removed
        id = if id = streamID then s.account streamID else s.removed id :=
      fun id => Function.update_apply _ _ _ _
    constructor
    · intro hall c hc hcontributes
      rw [h.readBeforeReset streamID c hc]
      apply hall streamID c _ hcontributes
      rw [hremoved, if_pos rfl]
      exact account_of_live hc
    · intro hfull id c hc hcontributes
      rw [hremoved] at hc
      split_ifs at hc with heq
      · rcases or_eq_some_iff.mp hc with hlive | ⟨-, hgone⟩
        · rw [← h.readBeforeReset streamID c hlive]
          exact hfull c hlive hcontributes
        · exact hleak streamID c hgone hcontributes
      · exact hleak id c hc hcontributes

/-- Along a run without flow control errors and wrap-around, no connection credit is
lost exactly if every contributing stream has been read in full, and before the peer
reset it, when it is removed. -/
theorem run_noLeak_iff (multiplied : ℕ → ℕ) (p : ConnectionParameters)
    (hp : p.Ordered)
    (es : List Event)
    (hes : AllSteps (step multiplied)
      (fun s e => s.NoError e ∧ s.NotReused e ∧ s.AllSmall) (new p) es) :
    AllSteps (step multiplied) (fun s e => (s.step multiplied e).NoLeak) (new p) es ↔
      AllSteps (step multiplied) ReadInFull (new p) es := by
  refine allSteps_congr (I := fun s => s.Sound ∧ s.NoLeak)
    (fun s e hI hP hR => ?_) (fun s e hI hP => ?_) ⟨sound_new hp, rfl⟩ hes
  · have hnext := hI.1.step multiplied hP.1 hP.2.1 hP.2.2
    exact ⟨hnext, (hI.1.noLeak_step hI.2 multiplied hnext).mpr hR⟩
  · exact hI.1.noLeak_step hI.2 multiplied (hI.1.step multiplied hP.1 hP.2.1 hP.2.2)

/-- A stream is read up to its FIN, closed and removed. -/
def readToEnd : List Event :=
  [.newStream 5 true, .reader 5 (.addStreamFrame ⟨5, true, true, 0, [1, 2, 3]⟩),
    .reader 5 (.read 3), .reader 5 (.advance 1), .reader 5 (.advance 1),
    .reader 5 (.advance 1), .call 5 .close, .call 5 .sentFin, .removeStream 5]

theorem run_noLeak_readToEnd :
    let p := newConnectionParamatersManager (populateServerConfig ⟨0, 0⟩)
    p.Ordered ∧
      AllSteps (step id)
        (fun s e => s.NoError e ∧ s.NotReused e ∧ s.AllSmall) (new p) readToEnd ∧
      AllSteps (step id) ReadInFull (new p) readToEnd ∧
      AllSteps (step id) (fun s e => (s.step id e).NoLeak) (new p) readToEnd := by
  intro p
  have hp : p.Ordered := ⟨by decide, by decide, by decide, by decide⟩
  have hes : AllSteps (step id)
      (fun s e => s.NoError e ∧ s.NotReused e ∧ s.AllSmall) (new p) readToEnd := by
    decide +kernel
  have hfull : AllSteps (step id) ReadInFull (new p) readToEnd := by
    decide +kernel
  exact ⟨hp, hes, hfull, (run_noLeak_iff id p hp readToEnd hes).mpr hfull⟩

/-- A stream receives three bytes and is reset by the peer before they are read. -/
def resetUnread : List Event :=
  [.newStream 5 true, .reader 5 (.addStreamFrame ⟨5, false, true, 0, [1, 2, 3]⟩),
    .call 5 (.registerRemoteError (.rstStreamReceived 0)), .resetStream 5 3]

/-- The stream has finished, and its removal gives nothing back. -/
theorem removeStream_leaks :
    let p := newConnectionParamatersManager (populateServerConfig ⟨0, 0⟩)
    let s := run (step id) (new p) resetUnread
    let s' := s.step id (.removeStream 5)
    AllSteps (step id) (fun s e => s.NoError e ∧ s.NotReused e ∧ s.AllSmall) (new p)
        (resetUnread ++ [.removeStream 5]) ∧
      (s.readers 5).map (·.stream.finished) = some true ∧
      (s.manager.streamFlowController 5).map (·.highestReceived) = some 3 ∧
      s'.manager.streamFlowController 5 = none ∧
      s'.manager.connFlowController.highestReceived = 3 ∧
      s'.manager.connFlowController.bytesRead = 0 ∧
      ¬s'.NoLeak := by
  decide +kernel

end Receiver

end Pstream.FlowControl
