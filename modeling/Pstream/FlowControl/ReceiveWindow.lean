import Pstream.FlowControl.Run

/-!
# The receive window

`MaybeUpdateWindow` computes the new receive window from the bytes read and an
increment that is tuned between its initial value and a configured maximum.  The
configuration is not checked: if the maximum is far below the initial window, the
first tuning takes back a window that the peer has already been told.
-/

namespace Pstream.FlowControl

open Support Manager FlowController

/-! ## Tuning -/

namespace FlowController

variable {c c' : FlowController}

/-- The increment may be replaced by its maximum without lowering the window. -/
structure Tunable (c : FlowController) : Prop where
  half_le : c.receiveWindowIncrement / 2 ≤ c.maxReceiveWindowIncrement + 1
  increment_lt : c.receiveWindowIncrement < 2 ^ 63
  max_lt : c.maxReceiveWindowIncrement < 2 ^ 63
  window_lt : c.receiveWindow < 2 ^ 64

/-- An increment that `maybeAdjustWindowIncrement` may choose covers the
difference that triggers an update. -/
theorem Tunable.adjusted (h : c.Tunable) {inc diff : ℕ}
    (hdiff : diff < c.receiveWindowIncrement / 2)
    (hinc : inc = c.receiveWindowIncrement ∨ inc = min (addByteCount c.receiveWindowIncrement
        c.receiveWindowIncrement) c.maxReceiveWindowIncrement) :
    diff ≤ inc ∧ inc < 2 ^ 63 ∧ inc / 2 ≤ c.maxReceiveWindowIncrement + 1 := by
  have hhalf := h.half_le
  have hlt := h.increment_lt
  have hmax := h.max_lt
  rw [addByteCount_of_lt (by omega)] at hinc
  omega

/-- What `MaybeUpdateWindow` and `EnsureMinimumWindowIncrement` keep. -/
structure Raised (c c' : FlowController) : Prop where
  tunable : c'.Tunable
  bytesRead : c'.bytesRead = c.bytesRead
  window_le : c.receiveWindow ≤ c'.receiveWindow

theorem Tunable.maybeUpdateWindow (h : c.Tunable) (hread : c.bytesRead < 2 ^ 63) (t : Timing) :
    Raised c (c.maybeUpdateWindow t).1 := by
  rcases c.maybeUpdateWindow_eq t with heq | ⟨hdiff, inc, hinc, heq⟩
  · rw [heq]
    exact ⟨h, rfl, le_rfl⟩
  · obtain ⟨hle, hlt, hhalf⟩ := h.adjusted hdiff hinc
    have hwindow := h.window_lt
    have hinc_lt := h.increment_lt
    -- otherwise the difference has wrapped around and is too large
    have hread_le : c.bytesRead ≤ c.receiveWindow := by
      unfold subByteCount at hdiff
      omega
    rw [subByteCount_of_le hread_le hwindow] at hle
    rw [heq, addByteCount_of_lt (by omega)]
    refine ⟨⟨hhalf, hlt, h.max_lt, ?_⟩, rfl, ?_⟩
    · dsimp only
      omega
    · dsimp only
      omega

theorem Tunable.ensureMinimumWindowIncrement (h : c.Tunable) (inc : ℕ) :
    Raised c (c.ensureMinimumWindowIncrement inc) := by
  have hmax := h.max_lt
  rcases c.ensureMinimumWindowIncrement_eq inc with heq | heq
  · rw [heq]
    exact ⟨h, rfl, le_rfl⟩
  · rw [heq]
    refine ⟨⟨?_, ?_, hmax, h.window_lt⟩, rfl, le_rfl⟩
    · dsimp only
      omega
    · dsimp only
      omega

theorem Tunable.tunes (h : c.Tunable) (hread : c.bytesRead < 2 ^ 63)
    (htunes : Tunes c c') : Raised c c' := by
  cases htunes with
  | maybeUpdateWindow t => exact h.maybeUpdateWindow hread t
  | ensureMinimumWindowIncrement inc =>
    exact h.ensureMinimumWindowIncrement inc

theorem Tunable.tuned (h : c.Tunable) (hread : c.bytesRead < 2 ^ 63)
    (htuned : Relation.ReflTransGen Tunes c c') : Raised c c' := by
  induction htuned with
  | refl => exact ⟨h, rfl, le_rfl⟩
  | tail _ hlast ih =>
    have hnext := ih.tunable.tunes (by rw [ih.bytesRead]; exact hread) hlast
    exact ⟨hnext.tunable, hnext.bytesRead.trans ih.bytesRead, ih.window_le.trans hnext.window_le⟩

/-- An update that comes too soon doubles the increment. -/
theorem receiveWindow_doubled {t : Timing}
    (hdiff : subByteCount c.receiveWindow c.bytesRead < c.receiveWindowIncrement / 2)
    (hlast : c.lastWindowUpdateTime ≠ 0) (hrtt : t.smoothedRTT ≠ 0)
    (hsoon : t.now - c.lastWindowUpdateTime < 2 * max t.smoothedRTT (t.remoteRTTs.foldl max 0)) :
    (c.maybeUpdateWindow t).1.receiveWindow =
      addByteCount c.bytesRead (min (addByteCount c.receiveWindowIncrement
        c.receiveWindowIncrement) c.maxReceiveWindowIncrement) := by
  have hadjust : c.maybeAdjustWindowIncrement t =
      { c with
        receiveWindowIncrement :=
          min (addByteCount c.receiveWindowIncrement c.receiveWindowIncrement)
            c.maxReceiveWindowIncrement } := by
    unfold maybeAdjustWindowIncrement
    rw [if_neg hlast, if_neg hrtt, if_neg (not_le.mpr hsoon)]
  unfold maybeUpdateWindow
  simp only [if_pos hdiff, hadjust]

/-- The time of the first read counts as the time of an update. -/
theorem lastWindowUpdateTime_addBytesRead (hread : c.bytesRead = 0) (now : ℤ) (m n : ℕ) :
    ((c.addBytesRead now m).addBytesRead now n).lastWindowUpdateTime = now := by
  simp [addBytesRead, hread]

/-- What any event keeps of a controller. -/
structure Kept (readBytes : ℕ) (c c' : FlowController) : Prop where
  tunable : c'.Tunable
  bytesRead : c'.bytesRead ≤ c.bytesRead + readBytes
  window_le : c.receiveWindow ≤ c'.receiveWindow

theorem Tunable.count (h : c.Tunable) (k : Count) : Kept k.readBytes c (k.apply c) := by
  cases k with
  | updateHighestReceived byteOffset =>
    rw [Count.apply, updateHighestReceived_eq]
    exact ⟨⟨h.half_le, h.increment_lt, h.max_lt, h.window_lt⟩, Nat.le_add_right _ _, le_rfl⟩
  | addBytesRead now n =>
    exact ⟨⟨h.half_le, h.increment_lt, h.max_lt, h.window_lt⟩, Nat.mod_le _ _, le_rfl⟩
  | _ =>
    exact ⟨⟨h.half_le, h.increment_lt, h.max_lt, h.window_lt⟩, Nat.le_add_right _ _, le_rfl⟩

theorem Tunable.updateSendWindow (h : c.Tunable) (newOffset : ℕ) :
    Kept 0 c (c.updateSendWindow newOffset).1 := by
  unfold FlowController.updateSendWindow
  split_ifs
  · exact ⟨⟨h.half_le, h.increment_lt, h.max_lt, h.window_lt⟩, le_rfl, le_rfl⟩
  · exact ⟨h, le_rfl, le_rfl⟩

theorem Tunable.evolves (h : c.Tunable) (hread : c.bytesRead < 2 ^ 63) {e : Manager.Event}
    {key : Key} (hevolves : Evolves e key c c') : Kept e.readBytes c c' := by
  cases hevolves with
  | count k hk =>
    have hkept := h.count k
    exact ⟨hkept.tunable, hkept.bytesRead.trans (by omega), hkept.window_le⟩
  | tune htuned =>
    have hraised := h.tuned hread htuned
    exact ⟨hraised.tunable, by rw [hraised.bytesRead]; omega, hraised.window_le⟩
  | window streamID offset he hkey =>
    have hkept := h.updateSendWindow offset
    exact ⟨hkept.tunable, hkept.bytesRead.trans (by omega), hkept.window_le⟩

end FlowController

/-! ## Runs -/

/-- The configured maxima leave the initial windows room for tuning. -/
structure ConnectionParameters.Tunable (p : ConnectionParameters) : Prop where
  stream_half : p.receiveStreamFlowControlWindow / 2 ≤ p.maxReceiveStreamFlowControlWindow + 1
  connection_half : p.receiveConnectionFlowControlWindow / 2 ≤
    p.maxReceiveConnectionFlowControlWindow + 1
  stream_lt : p.receiveStreamFlowControlWindow < 2 ^ 63
  connection_lt : p.receiveConnectionFlowControlWindow < 2 ^ 63
  maxStream_lt : p.maxReceiveStreamFlowControlWindow < 2 ^ 63
  maxConnection_lt : p.maxReceiveConnectionFlowControlWindow < 2 ^ 63

theorem ConnectionParameters.Tunable.newFlowController {p : ConnectionParameters} (h : p.Tunable)
    (streamID : ℕ) (contributes : Bool) :
    (FlowControl.newFlowController streamID contributes p).Tunable := by
  unfold FlowControl.newFlowController
  by_cases hzero : streamID = 0
  · simp only [if_pos hzero]
    exact ⟨h.connection_half, h.connection_lt, h.maxConnection_lt,
      h.connection_lt.trans (by decide)⟩
  · simp only [if_neg hzero]
    exact ⟨h.stream_half, h.stream_lt, h.maxStream_lt, h.stream_lt.trans (by decide)⟩

namespace Manager

def KeepsReceiveWindows (multiplied : ℕ → ℕ) (f : Manager) (e : Event) :
    Prop :=
  ∀ key c c', f.controller key = some c → (f.step multiplied e).controller key = some c' →
    c.receiveWindow ≤ c'.receiveWindow

/-- All controllers can be tuned, and at most `n` bytes have been read. -/
structure TunableUpTo (n : ℕ) (f : Manager) : Prop where
  parameters : f.connectionParameters.Tunable
  tunable : ∀ key c, f.controller key = some c → c.Tunable
  bytesRead : ∀ key c, f.controller key = some c → c.bytesRead ≤ n

theorem tunableUpTo_new {p : ConnectionParameters} (hp : p.Tunable) :
    TunableUpTo 0 (newFlowControlManager p) := by
  refine ⟨hp, fun key c hc => ?_, fun key c hc => ?_⟩
  · cases key with
    | none =>
      cases hc
      exact hp.newFlowController 0 false
    | some => cases hc
  · cases key with
    | none =>
      cases hc
      exact le_rfl
    | some => cases hc

theorem TunableUpTo.step {n : ℕ} {f : Manager} (h : TunableUpTo n f)
    (hn : n < 2 ^ 63) (multiplied : ℕ → ℕ) (e : Event) :
    TunableUpTo (n + e.readBytes) (f.step multiplied e) ∧ f.KeepsReceiveWindows multiplied e := by
  obtain ⟨hparams, hstep⟩ := step_controller multiplied e
  have hkept : ∀ {key c c'}, f.controller key = some c → Evolves e key c c' →
      FlowController.Kept e.readBytes c c' := by
    intro key c c' hc hevolves
    have hread := h.bytesRead key c hc
    exact (h.tunable key c hc).evolves (by omega) hevolves
  refine ⟨⟨by rw [hparams]; exact h.parameters, fun key c' hc' => ?_,
    fun key c' hc' => ?_⟩, fun key c c' hc hc' => ?_⟩
  · rcases hstep key c' hc' with ⟨c, hc, hevolves⟩ | ⟨-, streamID, _, -, rfl⟩
    · exact (hkept hc hevolves).tunable
    · exact h.parameters.newFlowController streamID _
  · rcases hstep key c' hc' with ⟨c, hc, hevolves⟩ | ⟨-, streamID, _, -, rfl⟩
    · have hle := (hkept hc hevolves).bytesRead
      have hread := h.bytesRead key c hc
      omega
    · exact Nat.zero_le _
  · rcases hstep key c' hc' with ⟨c₀, hc₀, hevolves⟩ | ⟨hnone, -⟩
    · obtain rfl : c₀ = c := Option.some.inj (hc₀.symm.trans hc)
      exact (hkept hc hevolves).window_le
    · simp [hnone] at hc

/-- How many bytes the events report as read. -/
def totalRead (events : List Event) : ℕ := (events.map Event.readBytes).sum

theorem TunableUpTo.allSteps {n : ℕ} {f : Manager} (h : TunableUpTo n f) (multiplied : ℕ → ℕ)
    {events : List Event} (hn : n + totalRead events < 2 ^ 63) :
    AllSteps (Manager.step multiplied) (KeepsReceiveWindows multiplied) f
      events := by
  induction events generalizing n f with
  | nil => trivial
  | cons e events ih =>
    have htotal : totalRead (e :: events) = e.readBytes + totalRead events := List.sum_cons
    obtain ⟨hnext, hkeeps⟩ := h.step (by omega) multiplied e
    exact ⟨hkeeps, ih hnext (by omega)⟩

end Manager

/-! ## Configurations -/

/-- The windows of a `Config`; 0 stands for the default. -/
structure Config where
  maxReceiveStreamFlowControlWindow : ℕ
  maxReceiveConnectionFlowControlWindow : ℕ

def orDefault (window default : ℕ) : ℕ := if window = 0 then default else window

variable (config : Config)

def populateClientConfig : Config where
  maxReceiveStreamFlowControlWindow :=
    orDefault config.maxReceiveStreamFlowControlWindow (16 * 2 ^ 20)
  maxReceiveConnectionFlowControlWindow :=
    orDefault config.maxReceiveConnectionFlowControlWindow (24 * 2 ^ 20)

def populateServerConfig : Config where
  maxReceiveStreamFlowControlWindow := orDefault config.maxReceiveStreamFlowControlWindow (2 ^ 20)
  maxReceiveConnectionFlowControlWindow :=
    orDefault config.maxReceiveConnectionFlowControlWindow (3 * 2 ^ 19)

/-- The configuration that a client or a server uses. -/
def populateConfig (perspective : Perspective) (config : Config) : Config :=
  match perspective with
  | .client => populateClientConfig config
  | .server => populateServerConfig config

/-- The windows of `NewConnectionParamatersManager`. -/
def newConnectionParamatersManager : ConnectionParameters where
  sendStreamFlowControlWindow := 2 ^ 14
  sendConnectionFlowControlWindow := 2 ^ 14
  receiveStreamFlowControlWindow := 2 ^ 15
  receiveConnectionFlowControlWindow := 3 * 2 ^ 14
  maxReceiveStreamFlowControlWindow := config.maxReceiveStreamFlowControlWindow
  maxReceiveConnectionFlowControlWindow := config.maxReceiveConnectionFlowControlWindow

theorem tunable_newConnectionParamatersManager {config : Config}
    (hstream : 16383 ≤ config.maxReceiveStreamFlowControlWindow)
    (hconnection : 24575 ≤ config.maxReceiveConnectionFlowControlWindow)
    (hstream_lt : config.maxReceiveStreamFlowControlWindow < 2 ^ 63)
    (hconnection_lt : config.maxReceiveConnectionFlowControlWindow < 2 ^ 63) :
    (newConnectionParamatersManager config).Tunable := by
  constructor
  all_goals
    simp only [newConnectionParamatersManager]
    omega

namespace Manager

/-- The time of the first reads, with an RTT of 1. -/
def atOnce : Timing := ⟨1, 1, []⟩

/-- One stream is read to just over half of its window. -/
def readOneStream : List Event :=
  [.newStream 5 true, .addBytesRead 1 5 16385, .getWindowUpdates atOnce [5] false]

/-- Two streams are read to just over half of the window of the connection, but
not of their own windows. -/
def readTwoStreams : List Event :=
  [.newStream 5 true, .newStream 7 true, .addBytesRead 1 5 12288,
    .addBytesRead 1 7 12289, .getWindowUpdates atOnce [5, 7] false]

variable {f : Manager} {c : FlowController} {streamID : ℕ} {multiplied : ℕ → ℕ} {config : Config}

theorem streamFlowController_updateStreamWindow (t : Timing) (force : Bool)
    (hc : f.streamFlowController streamID = some c) :
    (f.updateStreamWindow multiplied t force streamID).2.streamFlowController streamID =
      some (c.maybeUpdateWindow t).1 := by
  unfold updateStreamWindow
  rw [hc]
  dsimp only
  split_ifs <;> exact Function.update_self streamID _ _

theorem updateStreamWindow_of_le (t : Timing) (hc : f.streamFlowController streamID = some c)
    (hdiff : c.receiveWindowIncrement / 2 ≤ subByteCount c.receiveWindow c.bytesRead) :
    (f.updateStreamWindow multiplied t false streamID).2 = f := by
  have hkept : c.maybeUpdateWindow t = (c, ⟨false, c.receiveWindowIncrement, c.receiveWindow⟩) := by
    unfold maybeUpdateWindow
    simp only [if_neg (not_lt.mpr hdiff)]
  have hset : f.setController streamID c = f := by
    unfold setController
    rw [← hc, Function.update_eq_self]
  unfold updateStreamWindow
  simp [hc, hkept, hset]

/-- The window after an update at once that takes place with `n` bytes read from
an initial window `w`. -/
theorem receiveWindow_atOnce {n w max : ℕ} (hread : c.bytesRead = n) (hwindow : c.receiveWindow = w)
    (hincrement : c.receiveWindowIncrement = w) (hmax : c.maxReceiveWindowIncrement = max)
    (hlast : c.lastWindowUpdateTime = 1) (hn : n ≤ w) (hw : w - n < w / 2) (hlt : w < 2 ^ 62) :
    (c.maybeUpdateWindow atOnce).1.receiveWindow = n + min (w + w) max := by
  have hdouble : addByteCount w w = w + w := addByteCount_of_lt (by omega)
  rw [receiveWindow_doubled, hread, hincrement, hmax, hdouble,
    addByteCount_of_lt (by omega)]
  · rwa [hwindow, hread, hincrement, subByteCount_of_le hn (by omega)]
  · rw [hlast]
    decide
  · decide
  · rw [hlast]
    decide

/-- Reading one stream lowers its window if the maximum is too small. -/
theorem le_maxStream_of_keeps
    (h : AllSteps (step multiplied) (KeepsReceiveWindows multiplied)
      (newFlowControlManager (newConnectionParamatersManager config))
      readOneStream) : 16383 ≤ config.maxReceiveStreamFlowControlWindow := by
  have hread : addByteCount 0 16385 = 16385 := by decide
  have hlast := h.2.2.1 (some 5) _ _ rfl (streamFlowController_updateStreamWindow _ _ rfl)
  rw [receiveWindow_atOnce (w := 2 ^ 15) hread rfl rfl rfl rfl (by decide)
    (by decide) (by decide)] at hlast
  have hle : 2 ^ 15 ≤ 16385 + min (2 ^ 15 + 2 ^ 15)
    config.maxReceiveStreamFlowControlWindow := hlast
  omega

theorem updateStreamWindows_of_le (multiplied : ℕ → ℕ) (t : Timing) {id₁ id₂ : ℕ}
    {c₁ c₂ : FlowController} (hc₁ : f.streamFlowController id₁ = some c₁)
    (hc₂ : f.streamFlowController id₂ = some c₂)
    (hdiff₁ : c₁.receiveWindowIncrement / 2 ≤ subByteCount c₁.receiveWindow c₁.bytesRead)
    (hdiff₂ : c₂.receiveWindowIncrement / 2 ≤ subByteCount c₂.receiveWindow c₂.bytesRead) :
    (updateStreamWindows multiplied t false [id₁, id₂] f).2 = f := by
  simp only [updateStreamWindows]
  rw [updateStreamWindow_of_le t hc₁ hdiff₁,
    updateStreamWindow_of_le t hc₂ hdiff₂]

/-- Reading two streams lowers the window of the connection if the maximum is too
small. -/
theorem le_maxConnection_of_keeps
    (h : AllSteps (step multiplied) (KeepsReceiveWindows multiplied)
      (newFlowControlManager (newConnectionParamatersManager config))
      readTwoStreams) : 24575 ≤ config.maxReceiveConnectionFlowControlWindow := by
  have hread : addByteCount (addByteCount 0 12288) 12289 = 24577 := by decide
  have hdiff₁ : 2 ^ 15 / 2 ≤ subByteCount (2 ^ 15) (addByteCount 0 12288) := by
    decide
  have hdiff₂ : 2 ^ 15 / 2 ≤ subByteCount (2 ^ 15) (addByteCount 0 12289) := by
    decide
  let p := newConnectionParamatersManager config
  let f := run (step multiplied) (newFlowControlManager p) (readTwoStreams.take 4)
  let c₁ := (newFlowController 5 true p).addBytesRead 1 12288
  let c₂ := (newFlowController 7 true p).addBytesRead 1 12289
  have hc₁ : f.streamFlowController 5 = some c₁ := rfl
  have hc₂ : f.streamFlowController 7 = some c₂ := rfl
  have hkept := updateStreamWindows_of_le multiplied atOnce hc₁ hc₂ hdiff₁ hdiff₂
  have hconn : (f.step multiplied (.getWindowUpdates atOnce [5, 7] false)).controller none =
        some (f.connFlowController.maybeUpdateWindow atOnce).1 := by
    unfold step getWindowUpdates
    rw [controller_setConn, if_pos rfl, hkept]
  have htime : f.connFlowController.lastWindowUpdateTime = 1 :=
    lastWindowUpdateTime_addBytesRead
      (c := newFlowController 0 false p) rfl 1 12288 12289
  have hlast := h.2.2.2.2.1 none _ _ rfl hconn
  rw [receiveWindow_atOnce (w := 3 * 2 ^ 14) hread rfl rfl rfl htime (by decide)
    (by decide) (by decide)] at hlast
  have hle : 3 * 2 ^ 14 ≤ 24577 + min (3 * 2 ^ 14 + 3 * 2 ^ 14)
    config.maxReceiveConnectionFlowControlWindow := hlast
  omega

/-- For maxima below 2^63, no receive window is ever lowered in a run in which
fewer than 2^63 bytes are read exactly if the configured maxima are, up to one
byte, at least half of the initial windows. -/
theorem run_keepsReceiveWindows_iff (multiplied : ℕ → ℕ) (perspective : Perspective)
    (config : Config)
    (hstream : (populateConfig perspective config).maxReceiveStreamFlowControlWindow < 2 ^ 63)
    (hconnection : (populateConfig perspective config
      ).maxReceiveConnectionFlowControlWindow < 2 ^ 63) :
    let config := populateConfig perspective config
    let f := newFlowControlManager (newConnectionParamatersManager config)
    (∀ events, totalRead events < 2 ^ 63 →
        AllSteps (Manager.step multiplied) (KeepsReceiveWindows multiplied) f events) ↔
      16383 ≤ config.maxReceiveStreamFlowControlWindow ∧
        24575 ≤ config.maxReceiveConnectionFlowControlWindow := by
  constructor
  · intro h
    exact ⟨le_maxStream_of_keeps (h readOneStream (by decide)),
      le_maxConnection_of_keeps (h readTwoStreams (by decide))⟩
  · rintro ⟨hstream_le, hconnection_le⟩ events hread
    have htunable := tunable_newConnectionParamatersManager hstream_le
      hconnection_le hstream hconnection
    exact (tunableUpTo_new htunable).allSteps multiplied (by omega)

/-- The defaults of a client are large enough. -/
theorem run_keepsReceiveWindows_default :
    let config := populateConfig .client ⟨0, 0⟩
    let f := newFlowControlManager (newConnectionParamatersManager config)
    totalRead readTwoStreams < 2 ^ 63 ∧
      AllSteps (Manager.step id) (KeepsReceiveWindows id) f readTwoStreams := by
  have hread : totalRead readTwoStreams < 2 ^ 63 := by decide
  exact ⟨hread, (run_keepsReceiveWindows_iff id .client ⟨0, 0⟩ (by decide)
    (by decide)).mpr ⟨by decide, by decide⟩ readTwoStreams hread⟩

/-- A server with a maximum of 1 for the window of a stream takes back nearly half
of the initial window of 32768 bytes. -/
theorem receiveWindow_lowered :
    let config := populateConfig .server ⟨1, 0⟩
    let f := newFlowControlManager (newConnectionParamatersManager config)
    let f' := run (Manager.step id) f readOneStream
    (f.newStream 5 true).getReceiveWindow 5 = .ok 32768 ∧ f'.getReceiveWindow 5 = .ok 16386 ∧
      ¬AllSteps (Manager.step id) (KeepsReceiveWindows id) f readOneStream := by
  refine ⟨by decide +kernel, by decide +kernel, fun h => ?_⟩
  exact absurd (le_maxStream_of_keeps h) (by decide)

end Manager

end Pstream.FlowControl
