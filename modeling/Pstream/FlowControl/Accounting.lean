import Pstream.FlowControl.Receiver

/-!
# The accounts of a session

No event takes the counters of the streams apart from those of the connection, unless
a 64-bit counter wraps around: the connection has received what all its streams have
received, and every controller has read no more than it has received and received no
more than it has allowed.
-/

namespace Pstream.FlowControl

open Option Function Pstream.Stream Support Wire Manager Receiver

namespace Receiver

variable {s s' : Receiver} {streamID : ℕ} {c c' : FlowController}

/-! ## One event -/

variable {r : Reader Unit}

/-- Only a reader has changed, and it has reported nothing to flow control. -/
theorem Sound.silent (h : s.Sound) (hc : s.account streamID = some c)
    (hwithin : r.Within streamID c.highestReceived c.bytesRead) {readBeforeReset : ℕ → ℕ}
    (hbefore : ∀ id c, s.manager.streamFlowController id = some c →
      readBeforeReset id = s.readBeforeReset id) :
    Sound { s with
      readers := update s.readers streamID (some r)
      readBeforeReset := readBeforeReset } := by
  refine ⟨h.parameters, h.ordered, fun id r' hr' => ?_, fun id c hc => ?_,
    h.removed_le, h.removed_once, h.created, h.highestReceived, h.bytesRead⟩
  · dsimp only at hr'
    rw [update_apply] at hr'
    split_ifs at hr' with heq
    · cases hr'
      rw [heq]
      exact ⟨c, hc, hwithin⟩
    · exact h.reader id r' hr'
  · exact (hbefore id c hc).trans (h.readBeforeReset id c hc)

theorem Sound.newStream (h : s.Sound) (multiplied : ℕ → ℕ) {streamID : ℕ} {contributes : Bool}
    (hnew : s.NotReused (.newStream streamID contributes)) :
    (s.step multiplied (.newStream streamID contributes)).Sound := by
  cases hlive : s.manager.streamFlowController streamID with
  | some c =>
    dsimp only [step]
    rwa [hlive]
  | none =>
  have hfresh : s.removed streamID = none := isNone_iff_eq_none.mp hnew
  have hmem : streamID ∉ s.created := by
    rw [h.created, account, hlive, hfresh]
    exact Bool.false_ne_true
  have hstep : s.step multiplied (.newStream streamID contributes) =
      { s with
        manager := s.manager.newStream streamID contributes
        readers := update s.readers streamID (some (.new streamID ()))
        created := insert streamID s.created
        readBeforeReset := update s.readBeforeReset streamID 0 } := by
    dsimp only [step]
    rw [hlive]
  have hwrites : Manager.Writes s.manager
      (s.step multiplied (.newStream streamID contributes)).manager streamID
      (newFlowController streamID contributes s.manager.connectionParameters)
      s.manager.connFlowController := by
    rw [hstep]
    unfold Manager.newStream
    rw [hlive]
    exact ⟨rfl, rfl, rfl⟩
  have hcreated : (s.step multiplied (.newStream streamID contributes)).created =
      insert streamID s.created := by
    rw [hstep]
  have hremoved : (s.step multiplied (.newStream streamID contributes)).removed = s.removed := by
    rw [hstep]
  have htotal : ∀ counter, counter (newFlowController streamID contributes
      s.manager.connectionParameters) = 0 →
      (s.step multiplied (.newStream streamID contributes)).total counter = s.total counter := by
    intro counter hzero
    rw [total_insert counter hmem hcreated (account_of_writes_self hwrites)
      (account_of_writes_other hwrites hremoved), contribution, hzero, ite_self,
      Nat.zero_add]
  refine Sound.write hwrites h hremoved ?_ ?_ (h.parameters.newFlowController streamID contributes)
    (h.ordered none _ rfl) ?_ ?_ hfresh hcreated ?_ ?_
  · intro id hid
    rw [hstep]
    exact update_of_ne hid _ _
  · intro id hid
    rw [hstep]
    exact update_of_ne hid _ _
  · intro r hr
    rw [hstep] at hr
    dsimp only at hr
    rw [update_self] at hr
    cases hr
    exact Reader.Within.new streamID ()
  · rw [hstep]
    exact update_self _ _ _
  · rw [htotal (·.highestReceived) rfl]
    exact h.highestReceived
  · rw [htotal (·.bytesRead) rfl]
    exact h.bytesRead

theorem account_removeStream (s : Receiver) (multiplied : ℕ → ℕ) (streamID id : ℕ) :
    (s.step multiplied (.removeStream streamID)).account id = s.account id := by
  unfold account
  dsimp only [step, removeStream]
  rw [update_apply, update_apply]
  split_ifs with heq
  · rw [heq, none_or]
  · rfl

theorem Sound.removeStream (h : s.Sound) (multiplied : ℕ → ℕ)
    (streamID : ℕ) : (s.step multiplied (.removeStream streamID)).Sound := by
  have haccount := s.account_removeStream multiplied streamID
  have htotal : ∀ counter, (s.step multiplied (.removeStream streamID)).total counter =
        s.total counter :=
    fun counter => total_congr counter rfl fun id => by rw [haccount]
  have hlive : ∀ {id c}, (s.step multiplied (.removeStream streamID)).manager.streamFlowController
        id = some c → s.manager.streamFlowController id = some c := by
    intro id c hc
    dsimp only [Receiver.step, Manager.removeStream] at hc
    rw [update_apply] at hc
    split_ifs at hc
    exact hc
  refine ⟨h.parameters, fun key c hc => ?_, fun id r hr => ?_, fun id c hc => ?_,
    fun id c hc => ?_, fun id c hc => ?_, fun id => ?_, ?_, ?_⟩
  · cases key with
    | none => exact h.ordered none c hc
    | some id => exact h.ordered (some id) c (hlive hc)
  · rw [haccount]
    exact h.reader id r hr
  · exact h.readBeforeReset id c (hlive hc)
  · dsimp only [Receiver.step] at hc
    rw [update_apply] at hc
    split_ifs at hc
    · exact h.read_le_of_account hc
    · exact h.removed_le id c hc
  · dsimp only [Receiver.step, Manager.removeStream] at hc ⊢
    rw [update_apply] at hc ⊢
    split_ifs at hc ⊢
    · rfl
    · exact h.removed_once id c hc
  · rw [haccount]
    exact h.created id
  · rw [htotal]
    exact h.highestReceived
  · rw [htotal]
    exact h.bytesRead

theorem Sound.account_getWindowUpdates (h : s.Sound) (hsmall : s.AllSmall)
    (multiplied : ℕ → ℕ) (t : Timing) (order : List ℕ) (force : Bool) (id : ℕ) :
    let s' := s.step multiplied (.getWindowUpdates t order force)
    (s.account id = none ∧ s'.account id = none) ∨
      ∃ c c', s.account id = some c ∧ s'.account id = some c' ∧ c.SameCounters c' := by
  intro s'
  rcases getWindowUpdates_controller multiplied t order force s.manager
    id with ⟨hnone, hnone'⟩ | ⟨c, c', hc, hc', htuned⟩
  · have hsame : s'.account id = s.account id := by
      unfold account
      rw [hnone, ← hnone']
      rfl
    cases hc : s.account id with
    | none => exact .inl ⟨rfl, hsame.trans hc⟩
    | some c =>
      exact .inr ⟨c, c, rfl, hsame.trans hc, rfl, rfl, rfl, rfl⟩
  · have hkept := (h.ordered (some id) c hc).tuned (h.small hsmall (some id) hc) htuned
    exact .inr ⟨c, c', account_of_live hc, account_of_live hc', hkept.2⟩

theorem Sound.getWindowUpdates (h : s.Sound) (hsmall : s.AllSmall)
    (multiplied : ℕ → ℕ) (t : Timing) (order : List ℕ) (force : Bool) :
    (s.step multiplied (.getWindowUpdates t order force)).Sound := by
  have haccount := h.account_getWindowUpdates hsmall multiplied t order force
  obtain ⟨hparameters, hfollows⟩ := follows_getWindowUpdates multiplied t order force s.manager
  -- every controller comes from one with the same counters
  have hkept : ∀ key c', (s.step multiplied (.getWindowUpdates t order force)).manager.controller
        key = some c' →
      ∃ c, s.manager.controller key = some c ∧ c'.Ordered ∧ c.SameCounters c' := by
    intro key c' hc'
    obtain ⟨c, hc, htuned⟩ := hfollows key c' hc'
    have hkept := (h.ordered key c hc).tuned (h.small hsmall key hc) htuned
    exact ⟨c, hc, hkept⟩
  obtain ⟨conn, hconn, -, hconn_same⟩ := hkept none _ rfl
  cases hconn
  have htotal : ∀ counter : FlowController → ℕ,
      (∀ c c', c.SameCounters c' → counter c' = counter c) →
      (s.step multiplied (.getWindowUpdates t order force)).total counter = s.total counter := by
    intro counter hcounter
    refine total_congr counter rfl fun id => ?_
    rcases haccount id with ⟨hnone, hnone'⟩ | ⟨c, c', hc, hc', hsame⟩
    · rw [hnone, hnone']
    · rw [hc, hc', elim_some, elim_some, contribution,
        contribution, hsame.contributes, hcounter c c' hsame]
  refine ⟨?_, fun key c' hc' => ?_, fun id r hr => ?_, fun id c' hc' => ?_,
    h.removed_le, fun id c hc => ?_, fun id => ?_, ?_, ?_⟩
  · exact hparameters ▸ h.parameters
  · obtain ⟨c, -, hordered, -⟩ := hkept key c' hc'
    exact hordered
  · obtain ⟨c₁, hc₁, hwithin⟩ := h.reader id r hr
    rcases haccount id with ⟨hnone, -⟩ | ⟨c, c', hc, hc', hsame⟩
    · simp [hnone] at hc₁
    · obtain rfl := Option.some.inj (hc.symm.trans hc₁)
      refine ⟨c', hc', ?_⟩
      rwa [hsame.highestReceived, hsame.bytesRead]
  · obtain ⟨c, hc, -, hsame⟩ := hkept (some id) c' hc'
    rw [hsame.bytesRead]
    exact h.readBeforeReset id c hc
  · rcases getWindowUpdates_controller multiplied t order force
      s.manager id with ⟨-, hnone⟩ | ⟨c₁, -, hc₁, -, -⟩
    · exact hnone
    · simp [h.removed_once id c hc] at hc₁
  · rcases haccount id with ⟨hnone, hnone'⟩ | ⟨c, c', hc, hc', -⟩
    · rw [hnone', ← hnone]
      exact h.created id
    · have hmem := h.created id
      rw [hc] at hmem
      rwa [hc']
  · rw [hconn_same.highestReceived, htotal _ fun _ _ hs => hs.highestReceived]
    exact h.highestReceived
  · rw [hconn_same.bytesRead, htotal _ fun _ _ hs => hs.bytesRead]
    exact h.bytesRead

theorem within_call {highest counted : ℕ}
    (h : r.Within streamID highest counted) (call : StreamCall) :
    Reader.Within streamID highest counted { r with stream := call.apply r.stream } := by
  cases call with
  | close | sentFin => exact h.withStream rfl rfl rfl h.err_of_stopped rfl
  | cancel err => exact h.cancel err
  | reset err => exact h.reset err
  | registerRemoteError err => exact h.registerRemoteError err

theorem Sound.call (h : s.Sound) (multiplied : ℕ → ℕ) (streamID : ℕ)
    (call : StreamCall) : (s.step multiplied (.call streamID call)).Sound := by
  dsimp only [step]
  cases hr : s.readers streamID with
  | none => exact h
  | some r =>
    obtain ⟨c, hc, hwithin⟩ := h.reader streamID r hr
    exact h.silent hc (within_call hwithin call) fun _ _ _ => rfl

theorem Sound.progress (h : s.Sound) {e : Reader.Event} (hc : s.account streamID = some c)
    (hprogress : Reader.Progress (receiveControl (readTime e)) streamID
      c.highestReceived c.bytesRead (r.withFlow s.manager)
      (stepReader s.manager r e)) :
    (s.withReader streamID r (stepReader s.manager r e)).Sound := by
  generalize stepReader s.manager r e = r' at hprogress
  unfold withReader
  cases hprogress with
  | silent hflow hwithin hread =>
    have hzero : bytesBeforeReset r r' = 0 := by
      unfold bytesBeforeReset
      rcases hread with hremote | hread
      · exact if_pos hremote
      · split_ifs
        · rfl
        · exact Nat.sub_eq_zero_of_le hread.le
    rw [hflow, hzero, Nat.add_zero, update_eq_self]
    exact h.silent hc (hwithin.withFlow ()) fun _ _ _ => rfl
  | reports m hflow hwithin hremote hread =>
    have hm : bytesBeforeReset r r' = m := by
      unfold bytesBeforeReset
      have hremote : r.stream.resetRemotely = false := hremote
      rw [hremote, hread]
      exact Nat.add_sub_cancel_left _ _
    rw [hm]
    cases hlive : s.manager.streamFlowController streamID with
    | none =>
      have hkept : r'.flow = s.manager := hflow.trans (addBytesRead_of_none hlive _ _)
      rw [hkept]
      refine h.silent hc ((hwithin.withFlow ()).mono le_rfl
        (Nat.le_add_right _ _)) fun id c₁ hc₁ => ?_
      refine update_of_ne ?_ _ _
      rintro rfl
      rw [hlive] at hc₁
      cases hc₁
    | some c₁ =>
      obtain rfl := Option.some.inj ((account_of_live hlive).symm.trans hc)
      refine Sound.addBytesRead h hlive rfl rfl ?_ hflow ?_ ?_ ?_ ?_
      · exact fun id hid => update_of_ne hid _ _
      · exact hwithin.counted_le.trans hwithin.readOffset_le
      · exact fun id hid => update_of_ne hid _ _
      · exact update_self _ _ _
      · intro r₁ hr₁
        dsimp only at hr₁
        rw [update_self] at hr₁
        cases hr₁
        exact hwithin.withFlow ()

theorem Sound.addStreamFrame (h : s.Sound) (hsmall : s.AllSmall) {f : StreamFrame}
    (hc : s.account streamID = some c) (hwithin : r.Within streamID c.highestReceived c.bytesRead)
    (herror : (s.manager.updateHighestReceived streamID (endOffset f)).2 = none) :
    (s.withReader streamID r (stepReader s.manager r (.addStreamFrame f))).Sound := by
  obtain ⟨c₁, hlive, haccepts⟩ := accepts_updateHighestReceived herror
  obtain rfl := Option.some.inj ((account_of_live hlive).symm.trans hc)
  have hwithin' := (hwithin.withFlow s.manager).addStreamFrame
    (receiveControl 0) (le_max_left _ _) (le_max_right c₁.highestReceived (endOffset f))
  have hflow : (stepReader s.manager r (.addStreamFrame f)).flow =
      (s.manager.updateHighestReceived streamID (endOffset f)).1 := by
    rw [← hwithin.streamID_eq]
    exact Reader.addStreamFrame_flow r.stream (receiveControl 0) s.manager f
  have hread : bytesBeforeReset r (stepReader s.manager r (.addStreamFrame f)) = 0 := by
    unfold bytesBeforeReset
    split_ifs
    · rfl
    · exact Nat.sub_eq_zero_of_le (Reader.addStreamFrame_readOffset r.stream
        (receiveControl 0) s.manager f).le
  unfold withReader
  rw [hflow, hread, Nat.add_zero, update_eq_self]
  refine Sound.accepts h hlive rfl rfl ?_ hsmall haccepts rfl ?_
  · exact fun id hid => update_of_ne hid _ _
  · intro r₁ hr₁
    dsimp only at hr₁
    rw [update_self] at hr₁
    cases hr₁
    exact hwithin'.withFlow ()

theorem Sound.stepReader (h : s.Sound) (hsmall : s.AllSmall) (multiplied : ℕ → ℕ) (streamID : ℕ)
    (e : Reader.Event) (herror : s.NoError (.reader streamID e)) :
    (s.step multiplied (.reader streamID e)).Sound := by
  dsimp only [step]
  cases hr : s.readers streamID with
  | none => exact h
  | some r =>
    obtain ⟨c, hc, hwithin⟩ := h.reader streamID r hr
    have hprogress := fun he => (hwithin.withFlow s.manager).step
      (receiveControl (readTime e)) (e := e) he
    cases e with
    | addStreamFrame => exact h.addStreamFrame hsmall hc hwithin herror
    | setReadDeadline t =>
      exact h.progress hc (hprogress fun _ => Reader.Event.noConfusion)
    | read len =>
      exact h.progress hc (hprogress fun _ => Reader.Event.noConfusion)
    | advance now =>
      exact h.progress hc (hprogress fun _ => Reader.Event.noConfusion)

theorem Sound.step (h : s.Sound) (multiplied : ℕ → ℕ) {e : Event} (herror : s.NoError e)
    (hnew : s.NotReused e) (hsmall : s.AllSmall) : (s.step multiplied e).Sound := by
  cases e with
  | newStream => exact h.newStream _ hnew
  | reader streamID e => exact h.stepReader hsmall _ _ e herror
  | call streamID call => exact h.call _ _ _
  | resetStream streamID byteOffset =>
    obtain ⟨c, hc, haccepts⟩ := accepts_resetStream herror
    refine h.accepts hc rfl rfl (fun _ _ => rfl) hsmall haccepts rfl ?_
    intro r hr
    obtain ⟨c', hc', hwithin⟩ := h.reader streamID r hr
    obtain rfl := Option.some.inj ((account_of_live hc).symm.trans hc')
    exact hwithin.mono (le_max_left _ _) le_rfl
  | getWindowUpdates => exact h.getWindowUpdates hsmall _ _ _ _
  | removeStream => exact h.removeStream _ _

/-! ## Runs -/

theorem sound_new {p : ConnectionParameters} (hp : p.Ordered) : (new p).Sound where
  parameters := hp
  ordered key c hc := by
    cases key with
    | none =>
      cases hc
      exact hp.newFlowController 0 false
    | some => cases hc
  reader _ _ hr := by cases hr
  readBeforeReset _ _ hc := by cases hc
  removed_le _ _ hc := by cases hc
  removed_once _ _ hc := by cases hc
  created id := by simp [new, account, newFlowControlManager]
  highestReceived := rfl
  bytesRead := rfl

theorem sound_run (multiplied : ℕ → ℕ) {p : ConnectionParameters} (hp : p.Ordered) {es : List Event}
    (hes : AllSteps (step multiplied)
      (fun s e => s.NoError e ∧ s.NotReused e ∧ s.AllSmall) (new p) es) :
    (run (step multiplied) (new p) es).Sound :=
  run_invariant (fun _ _ h hP => h.step multiplied hP.1 hP.2.1 hP.2.2) (sound_new hp) hes

/-- Along every run without flow control errors in which no window exceeds the largest
64-bit number and no ID of a removed stream is used again, the connection has received
the sum of what its streams have received, and all counters are in order. -/
theorem run_consistent (multiplied : ℕ → ℕ) (p : ConnectionParameters)
    (hp : p.Ordered)
    (es : List Event)
    (hes : AllSteps (step multiplied)
      (fun s e => s.NoError e ∧ s.NotReused e ∧ s.AllSmall) (new p) es) :
    let s := run (step multiplied) (new p) es
    s.manager.connFlowController.highestReceived = s.total (·.highestReceived) ∧
      (∀ id ∈ s.created, (s.account id).isSome) ∧
      ∀ key c, s.manager.controller key = some c → c.bytesRead ≤ c.highestReceived ∧
          c.highestReceived ≤ c.receiveWindow ∧
          subByteCount c.receiveWindow c.bytesRead = c.receiveWindow - c.bytesRead := by
  intro s
  have h : s.Sound := sound_run multiplied hp hes
  refine ⟨h.highestReceived, fun id hid => (h.created id).mp hid, fun key c hc => ?_⟩
  have hordered := h.ordered key c hc
  exact ⟨hordered.read_le, hordered.received_le, subByteCount_of_le
    (hordered.read_le.trans hordered.received_le) hordered.window_lt⟩

/-- A stream is partly read, reset by the peer and removed. -/
def partlyRead : List Event :=
  [.newStream 5 true, .reader 5 (.addStreamFrame ⟨5, false, true, 0, [1, 2, 3]⟩),
    .reader 5 (.read 2), .reader 5 (.advance 1), .reader 5 (.advance 1),
    .reader 5 (.advance 1), .getWindowUpdates ⟨1, 1, []⟩ [5] false,
    .call 5 (.registerRemoteError (.rstStreamReceived 0)), .resetStream 5 4,
    .removeStream 5]

theorem run_consistent_partlyRead :
    let p := newConnectionParamatersManager (populateServerConfig ⟨0, 0⟩)
    let s := run (step id) (new p) partlyRead
    p.Ordered ∧
      AllSteps (step id)
        (fun s e => s.NoError e ∧ s.NotReused e ∧ s.AllSmall) (new p) partlyRead ∧
      s.manager.connFlowController.highestReceived = 4 ∧
      s.manager.connFlowController.highestReceived = s.total (·.highestReceived) := by
  intro p s
  have hp : p.Ordered := ⟨by decide, by decide, by decide, by decide⟩
  have hes : AllSteps (step id)
      (fun s e => s.NoError e ∧ s.NotReused e ∧ s.AllSmall) (new p) partlyRead := by
    decide +kernel
  exact ⟨hp, hes, by decide +kernel, (run_consistent id p hp partlyRead hes).1⟩

/-! ## Wrap-around

The counters have 64 bits.  One stream that is read as it arrives, a whole window at a
time, reaches the end of the range with every configuration. -/

end Receiver

namespace FlowController

variable {c : FlowController} {n m window increment : ℕ}

/-- The counters of a controller when `n` bytes have been received and read. -/
structure Counts (n window increment : ℕ) (c : FlowController) : Prop where
  bytesRead : c.bytesRead = n
  highestReceived : c.highestReceived = n
  receiveWindow : c.receiveWindow = window
  receiveWindowIncrement : c.receiveWindowIncrement = increment

theorem counts_addBytesRead (hread : c.bytesRead = n) (hreceived : c.highestReceived = n + m)
    (hwindow : c.receiveWindow = window) (hincrement : c.receiveWindowIncrement = increment)
    (hlt : n + m < 2 ^ 64) (now : ℤ) : (c.addBytesRead now m).Counts (n + m) window increment := by
  refine ⟨?_, hreceived, hwindow, hincrement⟩
  unfold addBytesRead
  rw [hread, addByteCount_of_lt hlt]

theorem Counts.granted (h : c.Counts n window increment) (now : ℤ) :
    Counts n (addByteCount n increment) increment
      { c with
        lastWindowUpdateTime := now
        receiveWindow := addByteCount c.bytesRead c.receiveWindowIncrement } :=
  ⟨h.bytesRead, h.highestReceived, congrArg₂ addByteCount h.bytesRead h.receiveWindowIncrement,
    h.receiveWindowIncrement⟩

theorem Counts.diff_lt (h : c.Counts n window increment) (hle : n ≤ window)
    (hlt : window < 2 ^ 64) (hdiff : window - n < increment / 2) :
    subByteCount c.receiveWindow c.bytesRead < c.receiveWindowIncrement / 2 := by
  rwa [h.receiveWindow, h.bytesRead, h.receiveWindowIncrement, subByteCount_of_le hle hlt]

end FlowController

namespace Receiver

variable {s : Receiver} {streamID : ℕ}

/-- Stream 5 has been read up to offset `n`. -/
structure ReadUpTo (n : ℕ) (s : Receiver) : Prop where
  stream : ∃ c, s.manager.streamFlowController 5 = some c ∧
    c.contributesToConnection = true ∧ c.Counts n (addByteCount n (2 ^ 15)) (2 ^ 15)
  connection : s.manager.connFlowController.Counts n (addByteCount n (3 * 2 ^ 14)) (3 * 2 ^ 14)
  reader : ∃ r, s.readers 5 = some r ∧ r.Drained 5 n

/-- The data that fills the window of stream 5 behind offset `n`. -/
def windowFrame (n : ℕ) : StreamFrame := ⟨5, false, true, n, List.replicate (2 ^ 15) 0⟩

/-- One window is received, read and granted again. -/
def readWindow (n : ℕ) : List Event :=
  (Reader.readFrame (windowFrame n)).map (.reader 5) ++ [.getWindowUpdates ⟨1, 0, []⟩ [5] false]

def readWindows : ℕ → List Event
  | 0 => [.newStream 5 true]
  | k + 1 => readWindows k ++ readWindow (k * 2 ^ 15)

variable (multiplied : ℕ → ℕ) (n : ℕ)

theorem dataLen_windowFrame : (windowFrame n).dataLen = 2 ^ 15 := List.length_replicate

theorem endOffset_windowFrame : endOffset (windowFrame n) = n + 2 ^ 15 := by
  unfold endOffset
  rw [dataLen_windowFrame]
  rfl

/-- The steps of one reader, seen from the session. -/
theorem run_reader {r : Reader Unit} (hr : s.readers streamID = some r) (es : List Reader.Event)
    (htime : ∀ e ∈ es, readTime e = 0) :
    ∃ readBeforeReset, run (step multiplied) s (es.map (.reader streamID)) =
        { s with
          manager := (run (Reader.step (Manager.receiveControl 0)) (r.withFlow s.manager) es).flow
          readers := update s.readers streamID
            (some ((run (Reader.step (Manager.receiveControl 0))
              (r.withFlow s.manager) es).withFlow ()))
          readBeforeReset := readBeforeReset } := by
  induction es generalizing s r with
  | nil =>
    refine ⟨s.readBeforeReset, ?_⟩
    have hsame : update s.readers streamID (some r) = s.readers := by
      rw [← hr, update_eq_self]
    exact congrArg (fun readers => { s with readers := readers }) hsame.symm
  | cons e es ih =>
    have hstep : s.step multiplied (.reader streamID e) =
        s.withReader streamID r ((r.withFlow s.manager).step (Manager.receiveControl 0) e) := by
      dsimp only [step]
      rw [hr]
      unfold stepReader
      rw [htime e (.head _)]
    obtain ⟨readBeforeReset, hrest⟩ := ih (s := s.withReader streamID r ((r.withFlow s.manager).step
        (Manager.receiveControl 0) e))
      (update_self _ _ _) fun e' he' => htime e' (.tail e he')
    refine ⟨readBeforeReset, ?_⟩
    rw [List.map_cons, run_cons, hstep, hrest]
    unfold withReader
    rw [update_idem]
    rfl

namespace ReadUpTo

variable {n : ℕ} (h : s.ReadUpTo n)

include h

variable (hn : n + 2 ^ 16 ≤ 2 ^ 64)

include hn

theorem receivedOnConnection_highest {c : FlowController}
    (hcontributes : c.contributesToConnection = true) (hreceived : c.highestReceived = n) :
    (receivedOnConnection s.manager.connFlowController c
      (n + 2 ^ 15)).highestReceived = n + 2 ^ 15 := by
  have hmax : max c.highestReceived (n + 2 ^ 15) = n + 2 ^ 15 := by
    omega
  have hincrement : subByteCount (n + 2 ^ 15) n = 2 ^ 15 := by
    rw [subByteCount_of_le (by omega) (by omega)]
    omega
  have hadd : addByteCount s.manager.connFlowController.highestReceived (2 ^ 15) = n + 2 ^ 15 := by
    rw [h.connection.highestReceived, addByteCount_of_lt (by omega)]
  unfold receivedOnConnection
  rwa [if_pos hcontributes, hmax, hreceived, hincrement]

theorem accepted : (s.manager.updateHighestReceived 5 (n + 2 ^ 15)).2 = none := by
  obtain ⟨c, hc, hcontributes, hcounts⟩ := h.stream
  have hconn := h.connection
  have hstream_window := hcounts.receiveWindow
  have hconn_window := hconn.receiveWindow
  have hmax : max c.highestReceived (n + 2 ^ 15) = n + 2 ^ 15 := by
    rw [hcounts.highestReceived]
    omega
  rw [addByteCount_of_lt (by omega)] at hstream_window
  rw [addByteCount_of_lt (by omega)] at hconn_window
  apply updateHighestReceived_eq_none hc
  · rw [hmax, hstream_window]
  · rw [receivedOnConnection_highest h hn hcontributes hcounts.highestReceived]
    omega

theorem read_controllers :
    let f := (s.manager.updateHighestReceived 5 (n + 2 ^ 15)).1.addBytesRead 0 5 (2 ^ 15)
    (∃ c, f.streamFlowController 5 = some c ∧ c.contributesToConnection = true ∧
      c.Counts (n + 2 ^ 15) (n + 2 ^ 15) (2 ^ 15)) ∧
      f.connFlowController.Counts (n + 2 ^ 15) (n + 3 * 2 ^ 14) (3 * 2 ^ 14) := by
  obtain ⟨c, hc, hcontributes, hcounts⟩ := h.stream
  obtain ⟨c₁, hc₁, haccepts⟩ := accepts_updateHighestReceived (h.accepted hn)
  obtain rfl := Option.some.inj (hc.symm.trans hc₁)
  have hlive := (congrFun haccepts.writes.streams 5).trans (update_self _ _ _)
  have hwrites := writes_addBytesRead hlive 0 (2 ^ 15)
  have hcontributes' : (received c (n + 2 ^ 15)).contributesToConnection = true :=
    hcontributes
  rw [if_pos hcontributes', haccepts.writes.connection] at hwrites
  have hstream_window := hcounts.receiveWindow
  have hconn_window := h.connection.receiveWindow
  rw [addByteCount_of_lt (by omega)] at hstream_window
  rw [addByteCount_of_lt (by omega)] at hconn_window
  constructor
  · refine ⟨_, (congrFun hwrites.streams 5).trans (update_self _ _ _), hcontributes, ?_⟩
    refine FlowController.counts_addBytesRead
      (c := received c (n + 2 ^ 15)) (m := 2 ^ 15) hcounts.bytesRead ?_
      hstream_window hcounts.receiveWindowIncrement (by omega) 0
    refine (congrArg (max · _) hcounts.highestReceived).trans ?_
    exact max_eq_right (Nat.le_add_right n _)
  · rw [hwrites.connection]
    have hreceived := receivedOnConnection_highest h hn hcontributes hcounts.highestReceived
    have hkept := receivedOnConnection_kept s.manager.connFlowController c (n + 2 ^ 15)
    exact FlowController.counts_addBytesRead
      (hkept.bytesRead.trans h.connection.bytesRead) hreceived
      (hkept.receiveWindow.trans hconn_window)
      (hkept.receiveWindowIncrement.trans h.connection.receiveWindowIncrement)
      (by omega) 0

theorem readWindow (multiplied : ℕ → ℕ) :
    AllSteps (step multiplied) NoError s (Receiver.readWindow n) ∧
      (run (step multiplied) s (Receiver.readWindow n)).ReadUpTo (n + 2 ^ 15) := by
  obtain ⟨r, hr, hdrained⟩ := h.reader
  have haccepted := h.accepted hn
  have hend := endOffset_windowFrame n
  have hlen := dataLen_windowFrame n
  have hframe := (hdrained.withFlow s.manager).run_readFrame
    (f := windowFrame n) (Manager.receiveControl 0) (by rw [hlen]; decide)
    (by rw [hend]; unfold maxByteCount; omega) rfl
    (by rw [hend]; exact haccepted)
  obtain ⟨readBeforeReset, hrun⟩ := run_reader multiplied hr
    (Reader.readFrame (windowFrame n)) (by simp [Reader.readFrame, readTime])
  have hflow : (run (Reader.step (Manager.receiveControl 0))
      (r.withFlow s.manager) (Reader.readFrame (windowFrame n))).flow =
      (s.manager.updateHighestReceived 5 (n + 2 ^ 15)).1.addBytesRead 0 5 (2 ^ 15) := by
    rw [hframe, hend, hlen]
    rfl
  have hdrained' : (run (Reader.step (Manager.receiveControl 0))
      (r.withFlow s.manager) (Reader.readFrame (windowFrame n))).Drained 5 (n + 2 ^ 15) := by
    rw [hframe, hend]
    exact ⟨rfl, hdrained.streamID_eq, hdrained.cancelled, hdrained.resetLocally,
      hdrained.resetRemotely, hdrained.finishedReading, hdrained.readDeadline,
      rfl, rfl⟩
  rw [hflow] at hrun
  obtain ⟨⟨c, hc, hcontributes, hcounts⟩, hconn⟩ := h.read_controllers hn
  have hwrites := Manager.getWindowUpdates_untuned multiplied (t := ⟨1, 0, []⟩) rfl hc
    (hcounts.diff_lt le_rfl (by omega) (by rw [Nat.sub_self]; decide))
    (hconn.diff_lt (by omega) (by omega) (by omega))
  unfold Receiver.readWindow
  constructor
  · rw [allSteps_append]
    refine ⟨⟨?_, trivial, trivial, trivial, trivial, trivial, trivial⟩, trivial, trivial⟩
    change (s.manager.updateHighestReceived 5 (endOffset (windowFrame n))).2 = none
    rw [hend]
    exact haccepted
  · rw [run_append, hrun]
    refine ⟨⟨_, (congrFun hwrites.streams 5).trans (update_self _ _ _),
      hcontributes, hcounts.granted _⟩, ?_, _,
      update_self 5 _ s.readers, hdrained'.withFlow ()⟩
    exact hwrites.connection ▸ hconn.granted 1

end ReadUpTo

/-- As long as no counter wraps around, windows can be read one after the other. -/
theorem readUpTo_readWindows {p : ConnectionParameters}
    (hstream : p.receiveStreamFlowControlWindow = 2 ^ 15)
    (hconnection : p.receiveConnectionFlowControlWindow = 3 * 2 ^ 14) {k : ℕ} (hk : k < 2 ^ 49) :
    AllSteps (step multiplied) NoError (new p) (readWindows k) ∧
      (run (step multiplied) (new p) (readWindows k)).ReadUpTo (k * 2 ^ 15) := by
  induction k with
  | zero =>
    refine ⟨⟨trivial, trivial⟩, ⟨_, rfl, rfl, rfl, rfl, ?_, ?_⟩,
      ⟨rfl, rfl, ?_, ?_⟩, _, rfl, rfl, rfl, rfl, rfl, rfl, rfl, rfl, rfl, rfl⟩
    · exact hstream.trans (by decide)
    · exact hstream
    · exact hconnection.trans (by decide)
    · exact hconnection
  | succ k ih =>
    obtain ⟨hsteps, hread⟩ := ih (by omega)
    obtain ⟨hnext, hread'⟩ := hread.readWindow (by omega) multiplied
    refine ⟨allSteps_append.mpr ⟨hsteps, hnext⟩, ?_⟩
    rwa [readWindows, run_append, Nat.succ_mul]

/-- A default server reads `k` windows of a stream, and the next window that it
grants wraps around. -/
def WrapsAfter (k : ℕ) : Prop :=
  let p := newConnectionParamatersManager (populateServerConfig ⟨0, 0⟩)
  let multiplied := fun n => n + n / 2
  p.Ordered ∧ AllSteps (step multiplied) NoError (new p) (readWindows k) ∧
    ∃ c, (run (step multiplied) (new p) (readWindows k)).manager.streamFlowController 5 = some c ∧
      c.receiveWindow < c.highestReceived

theorem wrapsAfter {k : ℕ} (hk : k < 2 ^ 49)
    (hwraps : addByteCount (k * 2 ^ 15) (2 ^ 15) < k * 2 ^ 15) : WrapsAfter k := by
  unfold WrapsAfter
  intro p multiplied
  obtain ⟨hsteps, hread⟩ := readUpTo_readWindows multiplied (p := p) rfl rfl hk
  obtain ⟨c, hc, -, hcounts⟩ := hread.stream
  refine ⟨⟨by decide, by decide, by decide, by decide⟩, hsteps, c, hc, ?_⟩
  rwa [hcounts.receiveWindow, hcounts.highestReceived]

/-- After almost 2^64 bytes the receive window of the stream wraps around, and what
has been received is no longer within it. -/
theorem receiveWindow_wraps : WrapsAfter (2 ^ 49 - 1) := wrapsAfter (by decide) (by decide)

end Receiver

end Pstream.FlowControl
