import Pstream.FlowControl.ReceiveWindow

/-!
# What the calls write

An accepted offset, a read and a window update, each as the controllers it writes.
A controller whose counters are in order (what has been read has been received, what
has been received was allowed) is kept in order by window updates, as long as its
window does not exceed the largest 64-bit number.
-/

namespace Pstream.FlowControl

open Support FlowController

/-! ## What a call writes -/

theorem FlowController.not_checkFlowControlViolation {c : FlowController} :
    ¬c.checkFlowControlViolation = true ↔ c.highestReceived ≤ c.receiveWindow := by
  unfold checkFlowControlViolation
  rw [decide_eq_true_iff, not_lt]

namespace Manager

variable {f f' : Manager} {c : FlowController} {streamID byteOffset : ℕ}

/-- `f'` differs from `f` in the controllers of one stream and of the
connection. -/
structure Writes (f f' : Manager) (streamID : ℕ) (c conn : FlowController) : Prop where
  parameters : f'.connectionParameters = f.connectionParameters
  streams : f'.streamFlowController = Function.update f.streamFlowController streamID (some c)
  connection : f'.connFlowController = conn

/-- What an accepted offset makes of the controller of its stream. -/
def received (c : FlowController) (byteOffset : ℕ) : FlowController :=
  { c with highestReceived := max c.highestReceived byteOffset }

/-- What it makes of the controller of the connection. -/
def receivedOnConnection (conn c : FlowController) (byteOffset : ℕ) :
    FlowController :=
  if c.contributesToConnection then
    conn.incrementHighestReceived
      (subByteCount (max c.highestReceived byteOffset) c.highestReceived)
  else conn

/-- Only the highest offset of the connection changes. -/
structure OnlyReceives (c c' : FlowController) : Prop where
  bytesRead : c'.bytesRead = c.bytesRead
  receiveWindow : c'.receiveWindow = c.receiveWindow
  receiveWindowIncrement : c'.receiveWindowIncrement = c.receiveWindowIncrement

-- stated for any offset: with the sum in its place the kernel would compute with it
theorem onlyReceives_with (c : FlowController) (n : ℕ) :
    OnlyReceives c { c with highestReceived := n } :=
  ⟨rfl, rfl, rfl⟩

theorem receivedOnConnection_kept (conn c : FlowController) (byteOffset : ℕ) :
    OnlyReceives conn (receivedOnConnection conn c byteOffset) := by
  unfold receivedOnConnection
  split_ifs
  · exact onlyReceives_with conn _
  · exact ⟨rfl, rfl, rfl⟩

theorem updateHighestReceived_increment (c : FlowController) (byteOffset : ℕ) :
    (c.updateHighestReceived byteOffset).2.1 =
      subByteCount (max c.highestReceived byteOffset) c.highestReceived := by
  have hself : subByteCount c.highestReceived c.highestReceived = 0 := by
    simp [subByteCount]
  unfold FlowController.updateHighestReceived
  split_ifs with heq hlt
  · rw [heq, max_self, hself]
  · rw [max_eq_right (Nat.le_of_lt hlt)]
  · rw [max_eq_left (Nat.le_of_not_lt hlt), hself]

/-- The checks have been passed. -/
structure Accepts (f f' : Manager) (streamID byteOffset : ℕ) (c : FlowController) : Prop where
  writes : Writes f f' streamID (received c byteOffset)
    (receivedOnConnection f.connFlowController c byteOffset)
  stream_le : max c.highestReceived byteOffset ≤ c.receiveWindow
  connection_le : c.contributesToConnection = true →
    f'.connFlowController.highestReceived ≤ f'.connFlowController.receiveWindow

theorem accepts_countReceived (h : (f.countReceived streamID byteOffset (received c byteOffset)
      (subByteCount (max c.highestReceived byteOffset) c.highestReceived)).2 = none) :
    Accepts f (f.countReceived streamID byteOffset (received c byteOffset)
      (subByteCount (max c.highestReceived byteOffset)
        c.highestReceived)).1 streamID byteOffset c := by
  unfold countReceived at h ⊢
  dsimp only at h ⊢
  by_cases hviolation : (received c byteOffset).checkFlowControlViolation = true
  · simp [if_pos hviolation] at h
  have hle : max c.highestReceived byteOffset ≤ c.receiveWindow :=
    not_checkFlowControlViolation.mp hviolation
  rw [if_neg hviolation] at h ⊢
  by_cases hcontributes : c.contributesToConnection = true
  · have hreceived : (received c byteOffset).contributesToConnection = true := hcontributes
    rw [if_pos hreceived] at h ⊢
    refine ⟨⟨rfl, rfl, ?_⟩, hle, fun _ => ?_⟩
    · unfold receivedOnConnection
      rw [if_pos hcontributes]
      rfl
    · split_ifs at h with hconn
      exact not_checkFlowControlViolation.mp hconn
  · have hreceived : ¬(received c byteOffset).contributesToConnection = true := hcontributes
    rw [if_neg hreceived]
    refine ⟨⟨rfl, rfl, ?_⟩, hle, fun h => absurd h hcontributes⟩
    unfold receivedOnConnection
    rw [if_neg hcontributes]
    rfl

theorem accepts_updateHighestReceived (h : (f.updateHighestReceived streamID byteOffset).2 = none) :
    ∃ c, f.streamFlowController streamID = some c ∧
      Accepts f (f.updateHighestReceived streamID byteOffset).1 streamID byteOffset c := by
  unfold updateHighestReceived at h ⊢
  cases hc : f.streamFlowController streamID with
  | none => simp [hc] at h
  | some c =>
    refine ⟨c, rfl, ?_⟩
    rw [hc] at h
    dsimp only at h ⊢
    rw [updateHighestReceived_increment, c.updateHighestReceived_eq] at h ⊢
    split_ifs at h ⊢
    · obtain ⟨hwrites, hle, hconn⟩ := accepts_countReceived (f := { f with
        numOutofOrder := f.numOutofOrder + 1 }) h
      exact ⟨⟨hwrites.parameters, hwrites.streams, hwrites.connection⟩, hle, hconn⟩
    · exact accepts_countReceived h

theorem updateHighestReceived_eq_none (hc : f.streamFlowController streamID = some c)
    (hstream : max c.highestReceived byteOffset ≤ c.receiveWindow)
    (hconn : (receivedOnConnection f.connFlowController c byteOffset).highestReceived ≤
        f.connFlowController.receiveWindow) :
    (f.updateHighestReceived streamID byteOffset).2 = none := by
  have hstream_ok : ¬(received c byteOffset).checkFlowControlViolation = true :=
    not_checkFlowControlViolation.mpr hstream
  have hcount : ∀ g : Manager, g.connFlowController = f.connFlowController →
      (g.countReceived streamID byteOffset (received c byteOffset)
        (subByteCount (max c.highestReceived byteOffset) c.highestReceived)).2 = none := by
    intro g hg
    have hset : (g.setController streamID (received c byteOffset)
      ).connFlowController = f.connFlowController := hg
    unfold countReceived
    dsimp only
    rw [if_neg hstream_ok]
    by_cases hcontributes : c.contributesToConnection = true
    · have hreceived : (received c byteOffset).contributesToConnection = true := hcontributes
      unfold receivedOnConnection at hconn
      rw [if_pos hcontributes] at hconn
      rw [if_pos hreceived, hset]
      generalize subByteCount (max c.highestReceived byteOffset)
        c.highestReceived = increment at hconn ⊢
      have hkept := onlyReceives_with f.connFlowController
        (addByteCount f.connFlowController.highestReceived increment)
      have hok : ¬(f.connFlowController.incrementHighestReceived increment
          ).checkFlowControlViolation = true :=
        not_checkFlowControlViolation.mpr (hconn.trans hkept.receiveWindow.ge)
      rw [if_neg hok]
    · have hreceived : ¬(received c byteOffset).contributesToConnection = true := hcontributes
      rw [if_neg hreceived]
  unfold updateHighestReceived
  rw [hc]
  dsimp only
  rw [updateHighestReceived_increment, c.updateHighestReceived_eq]
  split_ifs
  · exact hcount { f with numOutofOrder := f.numOutofOrder + 1 } rfl
  · exact hcount f rfl

theorem accepts_resetStream (h : (f.resetStream streamID byteOffset).2 = none) :
    ∃ c, f.streamFlowController streamID = some c ∧
      Accepts f (f.resetStream streamID byteOffset).1 streamID byteOffset c := by
  unfold resetStream at h ⊢
  cases hc : f.streamFlowController streamID with
  | none => simp [hc] at h
  | some c =>
    refine ⟨c, rfl, ?_⟩
    rw [hc] at h
    have heq := c.updateHighestReceived_eq byteOffset
    have hincrement := updateHighestReceived_increment c byteOffset
    rcases hupdated : c.updateHighestReceived byteOffset with
      ⟨c', increment, _ | err⟩
    · rw [hupdated] at heq hincrement
      obtain rfl : c' = received c byteOffset := heq
      obtain rfl := hincrement
      simp only [hupdated] at h ⊢
      exact accepts_countReceived h
    · simp only [hupdated] at h
      cases h

theorem writes_addBytesRead (hc : f.streamFlowController streamID = some c) (now : ℤ) (n : ℕ) :
    Writes f (f.addBytesRead now streamID n) streamID (c.addBytesRead now n)
      (if c.contributesToConnection then
        f.connFlowController.addBytesRead now n
      else f.connFlowController) := by
  unfold addBytesRead count
  rw [hc]
  dsimp only
  split_ifs <;> exact ⟨rfl, rfl, rfl⟩

theorem addBytesRead_of_none (hc : f.streamFlowController streamID = none)
    (now : ℤ) (n : ℕ) : f.addBytesRead now streamID n = f := by
  unfold addBytesRead count
  rw [hc]

/-! ### Window updates -/

variable (multiplied : ℕ → ℕ)

theorem isSome_updateStreamWindow (t : Timing) (force : Bool) (id : ℕ) :
    ((f.updateStreamWindow multiplied t force id).2.streamFlowController streamID).isSome =
      (f.streamFlowController streamID).isSome := by
  cases hc : f.streamFlowController id with
  | none =>
    unfold updateStreamWindow
    rw [hc]
  | some c =>
    by_cases hid : streamID = id
    · rw [hid, streamFlowController_updateStreamWindow t force hc,
        hc, Option.isSome_some, Option.isSome_some]
    · have hother : (f.updateStreamWindow multiplied t force id).2.streamFlowController streamID =
          f.streamFlowController streamID := by
        unfold updateStreamWindow
        rw [hc]
        dsimp only
        split_ifs <;> exact Function.update_of_ne hid _ _
      rw [hother]

theorem isSome_updateStreamWindows (t : Timing) (force : Bool) (order : List ℕ) (f : Manager) :
    ((updateStreamWindows multiplied t force order f).2.streamFlowController streamID).isSome =
      (f.streamFlowController streamID).isSome := by
  induction order generalizing f with
  | nil => rfl
  | cons id order ih =>
    exact (ih _).trans (isSome_updateStreamWindow multiplied t force id)

/-- Window updates tune the controllers and neither add nor remove one. -/
theorem getWindowUpdates_controller (t : Timing) (order : List ℕ) (force : Bool) (f : Manager)
    (streamID : ℕ) : let f' := (f.getWindowUpdates multiplied t order force).2
    (f.streamFlowController streamID = none ∧ f'.streamFlowController streamID = none) ∨
      ∃ c c', f.streamFlowController streamID = some c ∧
        f'.streamFlowController streamID = some c' ∧
        Tuned (some streamID) c c' := by
  intro f'
  have hisSome : (f'.streamFlowController streamID).isSome =
      (f.streamFlowController streamID).isSome :=
    isSome_updateStreamWindows multiplied t force order f
  cases hc' : f'.streamFlowController streamID with
  | none =>
    rw [hc'] at hisSome
    exact .inl ⟨Option.isNone_iff_eq_none.mp (by simpa using hisSome), rfl⟩
  | some c' =>
    obtain ⟨c, hc, htuned⟩ :=
      (follows_getWindowUpdates multiplied t order force f).2 (some streamID) c' hc'
    exact .inr ⟨c, c', hc, rfl, htuned⟩

end Manager

/-! ## The order of the counters -/

namespace FlowController

variable {c c' : FlowController}

/-- What has been read has been received, and what has been received was
allowed. -/
structure Ordered (c : FlowController) : Prop where
  read_le : c.bytesRead ≤ c.highestReceived
  received_le : c.highestReceived ≤ c.receiveWindow
  increment_le : c.receiveWindowIncrement ≤ c.maxReceiveWindowIncrement
  window_le : c.receiveWindow ≤ c.bytesRead + c.maxReceiveWindowIncrement
  window_lt : c.receiveWindow < 2 ^ 64

/-- The largest window that the controller can grant is a 64-bit number, and so is
twice its increment. -/
def Small (c : FlowController) : Prop :=
  c.maxReceiveWindowIncrement < 2 ^ 63 ∧ c.bytesRead + c.maxReceiveWindowIncrement < 2 ^ 64

instance (c : FlowController) : Decidable c.Small := inferInstanceAs (Decidable (_ ∧ _))

theorem Ordered.tunable (h : c.Ordered) (hsmall : c.Small) : c.Tunable := by
  have hinc := h.increment_le
  have hmax := hsmall.1
  exact ⟨by omega, by omega, hmax, h.window_lt⟩

/-- Tuning does not touch the counters. -/
structure SameCounters (c c' : FlowController) : Prop where
  contributes : c'.contributesToConnection = c.contributesToConnection
  bytesRead : c'.bytesRead = c.bytesRead
  highestReceived : c'.highestReceived = c.highestReceived
  max : c'.maxReceiveWindowIncrement = c.maxReceiveWindowIncrement

theorem SameCounters.trans {c'' : FlowController} (h : SameCounters c c')
    (h' : SameCounters c' c'') : SameCounters c c'' :=
  ⟨h'.contributes.trans h.contributes, h'.bytesRead.trans h.bytesRead,
    h'.highestReceived.trans h.highestReceived, h'.max.trans h.max⟩

theorem sameCounters_of_tunes (h : Tunes c c') : SameCounters c c' := by
  cases h with
  | maybeUpdateWindow t =>
    rcases c.maybeUpdateWindow_eq t with heq | ⟨-, inc, -, heq⟩
    · rw [heq]
      exact ⟨rfl, rfl, rfl, rfl⟩
    · rw [heq]
      exact ⟨rfl, rfl, rfl, rfl⟩
  | ensureMinimumWindowIncrement inc =>
    rcases c.ensureMinimumWindowIncrement_eq inc with heq | heq
    · rw [heq]
      exact ⟨rfl, rfl, rfl, rfl⟩
    · rw [heq]
      exact ⟨rfl, rfl, rfl, rfl⟩

theorem Ordered.maybeUpdateWindow (h : c.Ordered) (hsmall : c.Small)
    (t : Timing) : (c.maybeUpdateWindow t).1.Ordered := by
  have hread := h.read_le.trans h.received_le
  have hreceived := h.received_le
  have hinc_le := h.increment_le
  have hlt := hsmall.2
  rcases c.maybeUpdateWindow_eq t with heq | ⟨hdiff, inc, hinc, heq⟩
  · rwa [heq]
  have hcovers := ((h.tunable hsmall).adjusted hdiff hinc).1
  rw [subByteCount_of_le hread h.window_lt] at hcovers
  have hmax : inc ≤ c.maxReceiveWindowIncrement := by
    rcases hinc with rfl | rfl
    · exact hinc_le
    · exact min_le_right _ _
  have hle : c.highestReceived ≤ c.bytesRead + inc := by
    omega
  rw [heq, addByteCount_of_lt (by omega)]
  exact ⟨h.read_le, hle, hmax, Nat.add_le_add_left hmax _,
    (Nat.add_le_add_left hmax _).trans_lt hlt⟩

theorem Ordered.ensureMinimumWindowIncrement (h : c.Ordered) (inc : ℕ) :
    (c.ensureMinimumWindowIncrement inc).Ordered := by
  rcases c.ensureMinimumWindowIncrement_eq inc with heq | heq
  · rwa [heq]
  · rw [heq]
    exact ⟨h.read_le, h.received_le, min_le_right _ _, h.window_le, h.window_lt⟩

theorem Ordered.tuned (h : c.Ordered) (hsmall : c.Small)
    (htuned : Relation.ReflTransGen Tunes c c') :
    c'.Ordered ∧ SameCounters c c' := by
  induction htuned with
  | refl => exact ⟨h, rfl, rfl, rfl, rfl⟩
  | tail _ hlast ih =>
    obtain ⟨hordered, hsame⟩ := ih
    refine ⟨?_, hsame.trans (sameCounters_of_tunes hlast)⟩
    cases hlast with
    | maybeUpdateWindow t =>
      apply hordered.maybeUpdateWindow
      unfold Small
      rwa [hsame.bytesRead, hsame.max]
    | ensureMinimumWindowIncrement inc =>
      exact hordered.ensureMinimumWindowIncrement inc

theorem maybeUpdateWindow_untuned {t : Timing} (hrtt : t.smoothedRTT = 0)
    (hdiff : subByteCount c.receiveWindow c.bytesRead < c.receiveWindowIncrement / 2) :
    c.maybeUpdateWindow t = ({ c with
          lastWindowUpdateTime := t.now
          receiveWindow := addByteCount c.bytesRead c.receiveWindowIncrement },
        ⟨true, 0, addByteCount c.bytesRead c.receiveWindowIncrement⟩) := by
  have hadjust : c.maybeAdjustWindowIncrement t = c := by
    unfold maybeAdjustWindowIncrement
    dsimp only
    rw [if_pos hrtt, ite_self]
  unfold maybeUpdateWindow
  simp only [if_pos hdiff, hadjust, ne_eq, not_true_eq_false, if_false]

end FlowController

theorem Manager.getWindowUpdates_untuned (multiplied : ℕ → ℕ) {t : Timing}
    (hrtt : t.smoothedRTT = 0) {f : Manager} {streamID : ℕ}
    {c : FlowController} (hc : f.streamFlowController streamID = some c)
    (hstream : subByteCount c.receiveWindow c.bytesRead < c.receiveWindowIncrement / 2)
    (hconn : subByteCount f.connFlowController.receiveWindow f.connFlowController.bytesRead <
        f.connFlowController.receiveWindowIncrement / 2) :
    Writes f (f.getWindowUpdates multiplied t [streamID] false).2 streamID
      { c with
        lastWindowUpdateTime := t.now
        receiveWindow := addByteCount c.bytesRead c.receiveWindowIncrement }
      { f.connFlowController with
        lastWindowUpdateTime := t.now
        receiveWindow := addByteCount f.connFlowController.bytesRead
          f.connFlowController.receiveWindowIncrement } := by
  unfold getWindowUpdates
  simp only [updateStreamWindows, updateStreamWindow, hc, c.maybeUpdateWindow_untuned hrtt hstream,
    Bool.or_true, if_true, ne_eq, not_true_eq_false, and_false, if_false,
    f.connFlowController.maybeUpdateWindow_untuned hrtt hconn]
  exact ⟨rfl, rfl, rfl⟩

end Pstream.FlowControl
