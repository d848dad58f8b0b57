import Pstream.Session.HandleFrames
import Pstream.Stream.Read

/-!
# The crypto stream

`HasCryptoStreamFrame` and `PopCryptoStreamFrame` call methods on stream 1
without asking whether it is open.  This side never closes, resets or cancels it,
so only a RST_STREAM frame of the peer can finish it, and then it is removed by
the next `garbageCollectStreams`.  If none finds it reset, it is open in every
state of every run.
-/

namespace Pstream

open Packer Pstream.Stream Support Wire

namespace Stream

/-- This side has neither cancelled nor closed nor reset the stream; it answers a
reset of the peer. -/
structure OnlyUsed (str : Stream) : Prop where
  cancelled : str.cancelled = false
  finishedWriting : str.finishedWriting = false
  rstSent : str.rstSent = str.resetRemotely

namespace OnlyUsed

variable {str : Stream}

/-- Such a stream is finished if and only if the peer has reset it. -/
theorem finished (h : str.OnlyUsed) : str.finished = str.resetRemotely := by
  obtain ⟨hcancelled, hwriting, hrst⟩ := h
  unfold Stream.finished finishedWriteAndSentFin
  rw [hcancelled, hwriting, hrst]
  cases str.resetRemotely <;> simp

theorem newStream (streamID : ℕ) : (Stream.newStream streamID).OnlyUsed := ⟨rfl, rfl, rfl⟩

variable {φ : Type} {r : Reader φ}

theorem addStreamFrame (h : str.OnlyUsed) (fc : FlowControlManager φ) (flow : φ)
    (frame : StreamFrame) : (str.addStreamFrame fc flow frame).2.1.OnlyUsed := by
  rcases addStreamFrame_stream fc flow str frame with
    ⟨-, hstr⟩ | ⟨-, readChan, hstr⟩
  · rwa [hstr]
  · rw [hstr]
    exact ⟨h.cancelled, h.finishedWriting, h.rstSent⟩

theorem sendReset (hcancelled : str.cancelled = false) (hwriting : str.finishedWriting = false)
    (hremote : str.resetRemotely = true) (hrst : str.rstSent = false) :
    str.sendReset.1.OnlyUsed := by
  have hsend : str.shouldSendReset = true := by
    simp [shouldSendReset, finishedWriteAndSentFin, hwriting, hremote, hrst]
  rw [Stream.sendReset, if_pos hsend]
  exact ⟨hcancelled, hwriting, hremote.symm⟩

theorem registerRemoteError (h : str.OnlyUsed) (err : StreamError) :
    (str.registerRemoteError err).1.OnlyUsed := by
  unfold Stream.registerRemoteError
  dsimp only
  split_ifs with hremote
  · exact h
  all_goals
    have hrst : str.rstSent = false := by
      rwa [h.rstSent, Bool.eq_false_iff]
    exact sendReset h.cancelled h.finishedWriting rfl hrst

theorem getDataForWriting (h : str.OnlyUsed) (maxBytes : ℕ) :
    (str.getDataForWriting maxBytes).1.OnlyUsed := by
  unfold Stream.getDataForWriting
  split
  · split_ifs <;> exact ⟨h.cancelled, h.finishedWriting, h.rstSent⟩
  · exact h

theorem write (h : str.OnlyUsed) (p : List UInt8) : (str.write p).OnlyUsed := by
  unfold Stream.write
  split_ifs
  · exact h
  · exact ⟨h.cancelled, h.finishedWriting, h.rstSent⟩

theorem waitingLoop (h : r.stream.OnlyUsed) (now : ℤ) (len : ℕ) (buf : List UInt8)
    (frame : Option StreamFrame) : (r.waitingLoop now len buf frame).stream.OnlyUsed := by
  unfold Reader.waitingLoop
  split_ifs
  · split <;> exact h
  · exact h
  · split
    · exact ⟨h.cancelled, h.finishedWriting, h.rstSent⟩
    · exact h

theorem advance (fc : FlowControlManager φ) (h : r.stream.OnlyUsed) (now : ℤ) :
    (r.advance fc now).stream.OnlyUsed := by
  unfold Reader.advance
  split
  · exact h
  · exact h
  · split_ifs
    · exact h
    · exact h
    · exact waitingLoop h now _ _ _
  · split_ifs
    · refine waitingLoop ?_ now _ _ _
      exact ⟨h.cancelled, h.finishedWriting, h.rstSent⟩
    · exact waitingLoop h now _ _ _
    · exact h
  · unfold Reader.copyFrame
    dsimp only
    split_ifs
    all_goals exact ⟨h.cancelled, h.finishedWriting, h.rstSent⟩
  · unfold Reader.popFrame
    split_ifs <;> exact ⟨h.cancelled, h.finishedWriting, h.rstSent⟩

theorem reader (fc : FlowControlManager φ) (h : r.stream.OnlyUsed)
    (e : Reader.Event) : (r.step fc e).stream.OnlyUsed := by
  cases e with
  | addStreamFrame frame => exact h.addStreamFrame fc r.flow frame
  | setReadDeadline t =>
    change (r.stream.setReadDeadline t).OnlyUsed
    unfold setReadDeadline
    split_ifs <;> exact ⟨h.cancelled, h.finishedWriting, h.rstSent⟩
  | read len =>
    change (r.read len).stream.OnlyUsed
    unfold Reader.read
    split
    · split_ifs <;> exact h
    · exact h
  | advance now => exact h.advance fc now

end OnlyUsed

end Stream

namespace Session.Streams

variable {φ : Type}

/-! ## Open streams -/

/-- Every stream that is open stays as it is. -/
def Keeps (s s' : Streams φ) : Prop :=
  ∀ id str, s.streamsMap.streams id = some str → s'.streamsMap.streams id = some str

theorem keeps_refl (s : Streams φ) : s.Keeps s := fun _ _ h => h

variable {s s' : Streams φ} {id : ℕ} {str : Pstream.Stream}

theorem Keeps.trans {s'' : Streams φ} (h : s.Keeps s') (h' : s'.Keeps s'') : s.Keeps s'' :=
  fun id str hstr => h' id str (h id str hstr)

section

variable (fc : FlowControl φ)

include fc

theorem keeps_newStream : s.Keeps (s.newStream fc id) := by
  intro id' str hstr
  unfold newStream StreamsMap.putStream
  cases hid : s.streamsMap.streams (Stream.newStream id).streamID with
  | some => exact hstr
  | none =>
    have hne : id' ≠ (Stream.newStream id).streamID := by
      intro heq
      rw [heq, hid] at hstr
      cases hstr
    simpa [StreamsMap.setStream, hne] using hstr

theorem keeps_openRemoteStream (s : Streams φ) (id : ℕ) : s.Keeps (s.openRemoteStream fc id).1 := by
  unfold openRemoteStream
  dsimp only
  split_ifs
  · exact keeps_refl s
  · exact keeps_refl s
  · refine Keeps.trans ?_ (keeps_newStream fc)
    intro id' str hstr
    cases s.streamsMap.perspective <;> exact hstr

theorem keeps_openRemoteStreams (s : Streams φ) (ids : List ℕ) :
    s.Keeps (s.openRemoteStreams fc ids).1 := by
  induction ids generalizing s with
  | nil => exact keeps_refl s
  | cons id ids ih =>
    have hfirst := keeps_openRemoteStream fc s id
    unfold openRemoteStreams
    generalize s.openRemoteStream fc id = result at hfirst ⊢
    rcases result with ⟨s', _ | err⟩
    · exact hfirst.trans (ih s')
    · exact hfirst

theorem keeps_getOrOpenStream (s : Streams φ) (id : ℕ) : s.Keeps (s.getOrOpenStream fc id).1 := by
  unfold getOrOpenStream
  have hall := keeps_openRemoteStreams fc s (s.streamsMap.streamsUpTo id)
  cases s.streamsMap.streams id with
  | some => exact keeps_refl s
  | none =>
    cases s.streamsMap.closedStream id with
    | some => exact keeps_refl s
    | none =>
      generalize s.openRemoteStreams fc _ = result at hall ⊢
      rcases result with ⟨s', _ | err⟩ <;> exact hall

theorem keeps_openStream : s.Keeps (s.openStream fc).1 := by
  unfold openStream
  dsimp only
  split_ifs
  · exact keeps_refl s
  · refine Keeps.trans ?_ (keeps_newStream fc)
    intro id' str hstr
    cases s.streamsMap.perspective <;> exact hstr

end

theorem closedStream_ne {m : StreamsMap} : m.closedStream id ≠ some (.ok (some str)) := by
  unfold StreamsMap.closedStream
  cases m.perspective with
  | server =>
    dsimp only
    split_ifs <;> simp
  | client =>
    dsimp only
    split_ifs <;> simp

theorem getOrOpenStream_ok {fc : FlowControl φ}
    (h : s.getOrOpenStream fc id = (s', .ok (some str))) :
    s'.streamsMap.streams id = some str := by
  unfold getOrOpenStream at h
  cases hid : s.streamsMap.streams id with
  | some _ =>
    simp only [hid, Prod.mk.injEq, Except.ok.injEq] at h
    rw [← h.1, hid, h.2]
  | none =>
    simp only [hid] at h
    cases hclosed : s.streamsMap.closedStream id with
    | some result =>
      simp only [hclosed, Prod.mk.injEq] at h
      exact absurd (h.2 ▸ hclosed) closedStream_ne
    | none =>
      simp only [hclosed] at h
      generalize s.openRemoteStreams fc _ = result at h
      rcases result with ⟨s₁, _ | err⟩
      · simp only [Prod.mk.injEq, Except.ok.injEq] at h
        rw [← h.1, h.2]
      · simp at h

/-! ## The crypto stream stays open -/

def CryptoOpen (s : Streams φ) : Prop := ∃ str, s.streamsMap.streams 1 = some str ∧ str.OnlyUsed

theorem Keeps.cryptoOpen (h : s.Keeps s') (hs : s.CryptoOpen) : s'.CryptoOpen := by
  obtain ⟨str, hstr, hused⟩ := hs
  exact ⟨str, h 1 str hstr, hused⟩

section

variable (hs : s.CryptoOpen)

include hs

theorem CryptoOpen.flow (flow : φ) : CryptoOpen { s with flow := flow } := hs

theorem CryptoOpen.setStream (hstr : id = 1 → str.OnlyUsed) : (s.setStream id str).CryptoOpen := by
  by_cases hid : id = 1
  · refine ⟨str, ?_, hstr hid⟩
    simp [Streams.setStream, StreamsMap.setStream, hid]
  · obtain ⟨cs, hcs, hused⟩ := hs
    refine ⟨cs, ?_, hused⟩
    simpa [Streams.setStream, StreamsMap.setStream, Ne.symm hid] using hcs

variable (fc : FlowControl φ)

include fc

theorem CryptoOpen.getOrOpenStream (id : ℕ) :
    (s.getOrOpenStream fc id).1.CryptoOpen ∧
      ∀ str, (s.getOrOpenStream fc id).2 = .ok (some str) → id = 1 →
        str.OnlyUsed := by
  have hopen := (keeps_getOrOpenStream fc s id).cryptoOpen hs
  refine ⟨hopen, fun str hstr hid => ?_⟩
  obtain ⟨cs, hcs, hused⟩ := hopen
  have hmem := getOrOpenStream_ok (Prod.ext rfl hstr)
  rw [hid] at hmem hcs
  obtain rfl := Option.some.inj (hmem.symm.trans hcs)
  exact hused

theorem CryptoOpen.handleStreamFrame (frame : StreamFrame) :
    (s.handleStreamFrame fc frame).1.CryptoOpen := by
  obtain ⟨hopen, hused⟩ := hs.getOrOpenStream fc frame.streamID
  unfold Streams.handleStreamFrame
  generalize s.getOrOpenStream fc frame.streamID = result at hopen hused ⊢
  rcases result with ⟨s', err | _ | str⟩
  · exact hopen
  · exact hopen
  · refine (hopen.flow _).setStream fun hid => ?_
    exact (hused str rfl hid).addStreamFrame _ _ _

theorem CryptoOpen.handleWindowUpdateFrame (frame : WindowUpdateFrame) :
    (s.handleWindowUpdateFrame fc frame).1.CryptoOpen := by
  obtain ⟨hopen, -⟩ := hs.getOrOpenStream fc frame.streamID
  unfold Streams.handleWindowUpdateFrame
  split_ifs
  · exact hs.flow _
  · generalize s.getOrOpenStream fc frame.streamID = result at hopen ⊢
    rcases result with ⟨s', err | _ | str⟩
    · exact hopen
    · exact hopen
    · exact hopen.flow _

theorem CryptoOpen.handleRstStreamFrame (frame : RstStreamFrame) :
    (s.handleRstStreamFrame fc frame).1.CryptoOpen := by
  obtain ⟨hopen, hused⟩ := hs.getOrOpenStream fc frame.streamID
  unfold Streams.handleRstStreamFrame
  generalize s.getOrOpenStream fc frame.streamID = result at hopen hused ⊢
  rcases result with ⟨s', err | _ | str⟩
  · exact hopen
  · exact hopen
  · exact hopen.setStream fun hid => (hused str rfl hid).registerRemoteError _

theorem CryptoOpen.cryptoStream : ∃ cs, s.cryptoStream fc = (s, some cs) ∧ cs.OnlyUsed := by
  obtain ⟨cs, hcs, hused⟩ := hs
  refine ⟨cs, ?_, hused⟩
  rw [Streams.cryptoStream, Streams.getOrOpenStream, hcs]

theorem CryptoOpen.popCryptoStreamFrame (maxLen : ℕ) :
    (s.popCryptoStreamFrame fc maxLen).2.CryptoOpen := by
  obtain ⟨cs, hcs, hused⟩ := hs.cryptoStream fc
  rw [Streams.popCryptoStreamFrame, hcs]
  dsimp only
  split_ifs
  · exact hs.setStream fun _ => hused.getDataForWriting _
  · exact hs

end

theorem cryptoOpen_server (fc : FlowControl φ) (flow : φ) {maxIncomingStreams : ℕ}
    (maxOutgoingStreams : ℕ) (hin : 0 < maxIncomingStreams) :
    (Streams.getOrOpenStream fc ⟨.newStreamsMap .server maxIncomingStreams
      maxOutgoingStreams, flow⟩ 1).1.CryptoOpen := by
  refine ⟨.newStream 1, ?_, .newStream 1⟩
  simp [getOrOpenStream, StreamsMap.newStreamsMap, StreamsMap.closedStream,
    StreamsMap.streamsUpTo, openRemoteStreams, openRemoteStream, newStream,
    StreamsMap.putStream, StreamsMap.setStream, Stream.newStream, hin.ne']

theorem cryptoOpen_client (fc : FlowControl φ) (flow : φ) (maxIncomingStreams : ℕ)
    {maxOutgoingStreams : ℕ} (hout : 0 < maxOutgoingStreams) :
    (Streams.openStream fc ⟨.newStreamsMap .client maxIncomingStreams
      maxOutgoingStreams, flow⟩).1.CryptoOpen := by
  refine ⟨.newStream 1, ?_, .newStream 1⟩
  simp [openStream, StreamsMap.newStreamsMap, newStream,
    StreamsMap.putStream, StreamsMap.setStream, Stream.newStream, hout.ne']

end Session.Streams

namespace Session

variable {κ φ ρ : Type} {ops : Interfaces κ φ ρ}

/-! ## Removing finished streams -/

theorem removeStream_of_ne (m : StreamsMap) {id id' : ℕ} (h : id' ≠ id) :
    (m.removeStream id).1.streams id' = m.streams id' := by
  unfold StreamsMap.removeStream
  cases m.streams id with
  | none => rfl
  | some => simp [h]

theorem preserves_path {I : Session κ φ ρ → Prop} (pathID : PathID) :
    Preserves I (path pathID : SessionM κ φ ρ (Path κ ρ)) := by
  refine preserves_get.bind fun s => ?_
  split
  · exact preserves_pure _
  · exact preserves_throw _

theorem preserves_forgetStreamOnPaths {I : Streams φ → Prop} (id : ℕ) (pathIDs : List PathID) :
    Preserves (fun s : Session κ φ ρ => I s.streams) (forgetStreamOnPaths id pathIDs) := by
  induction pathIDs with
  | nil => exact preserves_pure _
  | cons pathID rest ih =>
    refine (preserves_path pathID).bind fun _ => ?_
    exact Preserves.bind (preserves_modify fun _ hs => hs) fun _ => ih

theorem preserves_collectStream {id id' : ℕ} (hne : id' ≠ id) (str : Pstream.Stream) :
    Preserves (fun s : Session κ φ ρ =>
      s.streams.streamsMap.streams id' = some str) (collectStream ops id) := by
  refine preserves_get.bind fun s₀ => ?_
  refine Preserves.bind (preserves_modify fun s hs => ?_) fun _ => ?_
  · exact (removeStream_of_ne _ hne).trans hs
  · refine (preserves_forgetStreamOnPaths (I := fun streams =>
      streams.streamsMap.streams id' = some str) id _).bind fun _ => ?_
    exact preserves_modify fun _ hs => hs

/-- `garbageCollectStreams` removes only finished streams. -/
theorem preserves_collectStreams {id : ℕ} {str : Pstream.Stream}
    (hstr : str.finished = false) (ids : List ℕ) :
    Preserves (fun s : Session κ φ ρ =>
      s.streams.streamsMap.streams id = some str) (collectStreams ops ids) := by
  induction ids with
  | nil => exact preserves_pure _
  | cons id' rest ih =>
    intro s hs
    unfold collectStreams
    rw [stateAfter_get_bind]
    cases hid' : s.streams.streamsMap.streams id' with
    | none => exact hs
    | some str' =>
      dsimp only
      split_ifs with hfinished
      · have hne : id ≠ id' := by
          rintro rfl
          rw [hs, Option.some.injEq] at hid'
          rw [← hid', hstr] at hfinished
          cases hfinished
        exact ((preserves_collectStream hne str).bind fun _ => ih) s hs
      · exact ih s hs

/-! ## Runs -/

/-- What can happen to the streams of a session. -/
inductive StreamEvent
  | streamFrame (frame : StreamFrame)
  | rstStreamFrame (frame : RstStreamFrame)
  | windowUpdateFrame (frame : WindowUpdateFrame)
  | garbageCollectStreams
  | hasCryptoStreamFrame
  | popCryptoStreamFrame (maxLen : ℕ)
  /-- the handshake reads from the crypto stream -/
  | readCryptoStream (phase : ReadPhase) (e : Reader.Event)
  /-- the handshake writes to the crypto stream -/
  | writeCryptoStream (p : List UInt8)
  | openStream
  /-- the application asks for a stream of the peer -/
  | getOrOpenStream (streamID : ℕ)
  /-- the application or the framer uses another stream -/
  | useStream (streamID : ℕ) (other : streamID ≠ 1) (use : Pstream.Stream → Pstream.Stream)

/-- Change a stream that is open. -/
def modifyStream (s : Session κ φ ρ) (streamID : ℕ)
    (f : Pstream.Stream → Pstream.Stream) : Session κ φ ρ :=
  match s.streams.streamsMap.streams streamID with
  | none => s
  | some str => s.setStreams (s.streams.setStream streamID (f str))

/-- A step of a call of `Read` on the crypto stream. -/
def readCryptoStream (ops : Interfaces κ φ ρ) (phase : ReadPhase)
    (e : Reader.Event) (s : Session κ φ ρ) : Session κ φ ρ :=
  match s.streams.streamsMap.streams 1 with
  | none => s
  | some cs =>
    let r := Reader.step ops.flowControl.toFlowControlManager ⟨cs, s.streams.flow, phase, []⟩ e
    s.setStreams ({ s.streams with flow := r.flow }.setStream 1 r.stream)

namespace StreamEvent

def exec (ops : Interfaces κ φ ρ) : StreamEvent → SessionM κ φ ρ Unit
  | streamFrame frame => do
      let _ ← handleStreamFrame ops frame
  | rstStreamFrame frame => do
      let _ ← handleRstStreamFrame ops frame
  | windowUpdateFrame frame => do
      let _ ← handleWindowUpdateFrame ops frame
  | garbageCollectStreams => Session.garbageCollectStreams ops
  | hasCryptoStreamFrame => requireCryptoStream ops
  | popCryptoStreamFrame maxLen => do
      requireCryptoStream ops
      modify fun s => s.setStreams (s.streams.popCryptoStreamFrame ops.flowControl maxLen).2
  | readCryptoStream phase e => modify (Session.readCryptoStream ops phase e)
  | writeCryptoStream p => modify fun s => s.modifyStream 1 (·.write p)
  | openStream =>
    modify fun s => s.setStreams (s.streams.openStream ops.flowControl).1
  | getOrOpenStream streamID =>
    modify fun s => s.setStreams (s.streams.getOrOpenStream ops.flowControl streamID).1
  | useStream streamID _ use => modify fun s => s.modifyStream streamID use

/-- The session after an event, whether it panics or not. -/
def step (ops : Interfaces κ φ ρ) (s : Session κ φ ρ) (e : StreamEvent) : Session κ φ ρ :=
  stateAfter (exec ops e) s

/-- No finished crypto stream is removed: if the event is
`garbageCollectStreams`, the peer has not reset the crypto stream. -/
def SparesCryptoStream (s : Session κ φ ρ) : StreamEvent → Prop
  | garbageCollectStreams =>
    ∀ cs, s.streams.streamsMap.streams 1 = some cs → cs.resetRemotely = false
  | _ => True

variable {s : Session κ φ ρ}

theorem cryptoOpen_modifyStream (hs : s.streams.CryptoOpen) {streamID : ℕ}
    {f : Pstream.Stream → Pstream.Stream}
    (hf : streamID = 1 → ∀ str, str.OnlyUsed → (f str).OnlyUsed) :
    (s.modifyStream streamID f).streams.CryptoOpen := by
  unfold modifyStream
  split
  · exact hs
  · rename_i str hstr
    refine hs.setStream fun hid => hf hid str ?_
    obtain ⟨cs, hcs, hused⟩ := hs
    rw [hid, hcs, Option.some.injEq] at hstr
    exact hstr ▸ hused

theorem requireCryptoStream_ok (hs : s.streams.CryptoOpen) :
    requireCryptoStream ops s = .ok () s := by
  obtain ⟨cs, hcs, -⟩ := hs.cryptoStream ops.flowControl
  simp only [requireCryptoStream, hcs]
  rfl

theorem preserves_requireCryptoStream : Preserves (fun s : Session κ φ ρ => s.streams.CryptoOpen)
      (requireCryptoStream ops) := by
  intro s hs
  rwa [stateAfter_of_ok (requireCryptoStream_ok hs)]

theorem cryptoOpen_readCryptoStream (hs : s.streams.CryptoOpen) (phase : ReadPhase)
    (e : Reader.Event) : (s.readCryptoStream ops phase e).streams.CryptoOpen := by
  obtain ⟨cs, hcs, hused⟩ := hs
  unfold Session.readCryptoStream
  rw [hcs]
  refine Streams.CryptoOpen.setStream ⟨cs, hcs, hused⟩ fun _ => ?_
  exact Stream.OnlyUsed.reader _ hused e

theorem cryptoOpen_step {e : StreamEvent} (hs : s.streams.CryptoOpen)
    (he : SparesCryptoStream s e) : (step ops s e).streams.CryptoOpen := by
  cases e with
  | streamFrame frame => exact hs.handleStreamFrame ops.flowControl frame
  | rstStreamFrame frame =>
    have hopen := hs.handleRstStreamFrame ops.flowControl frame
    change (queueResetStreamFrame _ _).streams.CryptoOpen
    unfold queueResetStreamFrame
    split <;> exact hopen
  | windowUpdateFrame frame =>
    exact hs.handleWindowUpdateFrame ops.flowControl frame
  | garbageCollectStreams =>
    obtain ⟨cs, hcs, hused⟩ := hs
    have hfinished : cs.finished = false := hused.finished.trans (he cs hcs)
    exact ⟨cs, preserves_collectStreams hfinished _ s hcs, hused⟩
  | hasCryptoStreamFrame => exact preserves_requireCryptoStream s hs
  | popCryptoStreamFrame maxLen =>
    refine (preserves_requireCryptoStream.bind fun _ => ?_) s hs
    exact preserves_modify fun s hs =>
      hs.popCryptoStreamFrame ops.flowControl maxLen
  | readCryptoStream phase e => exact cryptoOpen_readCryptoStream hs phase e
  | writeCryptoStream p =>
    exact cryptoOpen_modifyStream hs fun _ _ hused => hused.write p
  | openStream => exact (Streams.keeps_openStream _).cryptoOpen hs
  | getOrOpenStream streamID =>
    exact (Streams.keeps_getOrOpenStream _ _ streamID).cryptoOpen hs
  | useStream streamID other use =>
    exact cryptoOpen_modifyStream hs fun hid => absurd hid other

/-- In every state reached from a new session, by any STREAM, RST_STREAM and
WINDOW_UPDATE frames and runs of `garbageCollectStreams`, while the handshake
reads and writes and the application does anything to the other streams, both
`HasCryptoStreamFrame` and `PopCryptoStreamFrame` find an open crypto stream,
provided that no run of `garbageCollectStreams` finds it reset by the peer. -/
theorem cryptoStream_found (ops : Interfaces κ φ ρ) (perspective : Perspective) (version : ℤ)
    (connectionID maxIncomingStreams maxOutgoingStreams : ℕ) (createPaths : Bool)
    (localAddr remoteAddr : UDPAddr) (localAddrs : List UDPAddr) (flow : φ) (now : ℤ)
    (hin : 0 < maxIncomingStreams)
    (hout : 0 < maxOutgoingStreams)
    (events : List StreamEvent)
    (hevents : AllSteps (step ops) SparesCryptoStream (newSession ops
      perspective version connectionID maxIncomingStreams maxOutgoingStreams
      createPaths localAddr remoteAddr localAddrs flow now) events)
    (maxLen : ℕ) :
    let s := run (step ops) (newSession ops perspective version connectionID
      maxIncomingStreams maxOutgoingStreams createPaths localAddr remoteAddr
      localAddrs flow now) events
    Succeeds (exec ops hasCryptoStreamFrame) s ∧
      Succeeds (exec ops (popCryptoStreamFrame maxLen)) s := by
  intro s
  have hnew : (newSession ops perspective version connectionID
      maxIncomingStreams maxOutgoingStreams createPaths localAddr remoteAddr
      localAddrs flow now).streams.CryptoOpen := by
    cases perspective with
    | server =>
      exact Streams.cryptoOpen_server ops.flowControl flow maxOutgoingStreams hin
    | client =>
      exact Streams.cryptoOpen_client ops.flowControl flow maxIncomingStreams hout
  have hopen : s.streams.CryptoOpen :=
    run_invariant (I := fun s : Session κ φ ρ => s.streams.CryptoOpen)
      (fun _ _ => cryptoOpen_step) hnew hevents
  have hfound : requireCryptoStream ops s = .ok () s := requireCryptoStream_ok hopen
  exact ⟨⟨(), s, hfound⟩, (), _, bind_ok.mpr ⟨(), s, hfound, modify_ok.mpr rfl⟩⟩

/-- A RST_STREAM frame for the crypto stream, then `garbageCollectStreams`: it is
gone, and does not come back. -/
theorem cryptoStream_removed :
    let events := [rstStreamFrame ⟨1, 0, 0⟩, garbageCollectStreams]
    ¬Succeeds (exec .stateless hasCryptoStreamFrame)
        (run (step .stateless) (statelessSession .server) events) ∧
      ¬Succeeds (exec .stateless hasCryptoStreamFrame)
        (run (step .stateless) (statelessSession .client) events) := by
  decide +kernel

/-- The crypto stream is reset, but `garbageCollectStreams` has run before. -/
theorem cryptoStream_found_reset :
    let events := [streamFrame ⟨5, false, false, 0, [1]⟩, garbageCollectStreams,
      rstStreamFrame ⟨1, 0, 0⟩]
    let s := run (step .stateless) (statelessSession .server) events
    Succeeds (exec .stateless hasCryptoStreamFrame) s ∧
      Succeeds (exec .stateless (popCryptoStreamFrame 100)) s := by
  refine cryptoStream_found .stateless .server version39 1 100 100 true _ _ []
    () 0 (by decide) (by decide) _ ?_ 100
  refine ⟨trivial, fun cs hcs => ?_, trivial, trivial⟩
  have hreset : some false = some cs.resetRemotely :=
    congrArg (Option.map Pstream.Stream.resetRemotely) hcs
  exact (Option.some.inj hreset).symm

end StreamEvent

end Session

end Pstream
