import Pstream.Stream.PushOutcome
import Pstream.Stream.Read
import Pstream.Support.Run

/-!
# What a reader can have read

The sorter cuts frames but never extends them, so all that is queued ends where
some accepted frame ended.  A reader therefore never gets past the highest offset
that flow control has accepted for its stream.
-/

namespace Pstream.Stream

open Function Support Wire StreamFrameSorter

/-! ## The queue -/

namespace StreamFrameSorter

variable {s : StreamFrameSorter} {frame : StreamFrame} {n : ℕ}

/-- No queued frame reaches beyond offset `n`. -/
def EndsBy (n : ℕ) (queued : ℕ → Option StreamFrame) : Prop :=
  ∀ k f, queued k = some f → endOffset f ≤ n

variable {queued : ℕ → Option StreamFrame}

theorem EndsBy.mono {m : ℕ} (h : EndsBy n queued) (hnm : n ≤ m) : EndsBy m queued :=
  fun k f hf => (h k f hf).trans hnm

theorem EndsBy.delete (h : EndsBy n queued) (k : ℕ) : EndsBy n (update queued k none) := by
  intro k' f hf
  rw [update_apply] at hf
  split_ifs at hf
  exact h k' f hf

theorem EndsBy.enqueue (h : EndsBy n queued) (k : ℕ) (hframe : endOffset frame ≤ n) :
    EndsBy n (update queued k (some frame)) := by
  intro k' f hf
  rw [update_apply] at hf
  split_ifs at hf
  · cases hf
    exact hframe
  · exact h k' f hf

/-- The queue that the search for the last gap leaves. -/
def queueOf : Except (List ByteInterval × (ℕ → Option StreamFrame)) EndGap → ℕ → Option StreamFrame
  | .error (_, queued) => queued
  | .ok e => e.queuedFrames

theorem EndsBy.findEndGap (h : EndsBy n queued) (stop : ℕ) (isGap : Bool) (gap : ByteInterval)
    (after : List ByteInterval) : EndsBy n (queueOf (findEndGap stop isGap gap after queued)) := by
  induction after generalizing isGap gap queued with
  | nil =>
    unfold findEndGap
    split_ifs <;> exact h
  | cons next rest ih =>
    unfold findEndGap
    dsimp only
    split_ifs
    · exact h
    · exact h
    · exact ih (h.delete gap.stop) false next

theorem endOffset_keepFront_le (m : ℕ) (frame : StreamFrame) :
    endOffset (keepFront m frame) ≤ endOffset frame := by
  have hlen := keepFront_dataLen m frame
  unfold endOffset
  rw [keepFront_offset]
  omega

variable (h : EndsBy n s.queuedFrames)

include h

theorem EndsBy.fillGaps (hframe : endOffset frame ≤ n) (before : List ByteInterval)
    (gap : ByteInterval) (after : List ByteInterval) :
    EndsBy n (s.fillGaps before gap after frame).1.queuedFrames := by
  have hqueue := h.findEndGap (endOffset frame) true gap after
  unfold StreamFrameSorter.fillGaps
  cases hend : StreamFrameSorter.findEndGap (endOffset frame) true gap after s.queuedFrames with
  | error left =>
    rwa [hend] at hqueue
  | ok e =>
    rw [hend] at hqueue
    dsimp only
    split_ifs
    · exact hqueue
    · exact hqueue.enqueue _ ((endOffset_keepFront_le _ frame).trans hframe)
    · exact hqueue
    · exact hqueue.enqueue _ hframe

theorem EndsBy.insert (hframe : endOffset frame ≤ n) :
    EndsBy n (s.insert frame).1.queuedFrames := by
  unfold StreamFrameSorter.insert
  cases hgap : findGap frame.offset (endOffset frame) s.gaps with
  | duplicate | notFound => exact h
  | found before gap after =>
    have hstart := (findGap_found hgap).2.2.1
    dsimp only
    split_ifs
    · refine h.fillGaps ?_ before gap after
      rw [endOffset_dropFront]
      · exact hframe
      · unfold endOffset at hstart
        omega
    · exact h.fillGaps hframe before gap after

/-- Pushing a frame that ends by `n` keeps what is queued below `n`. -/
theorem EndsBy.push (hframe : endOffset frame ≤ n) : EndsBy n (s.push frame).1.queuedFrames := by
  unfold StreamFrameSorter.push
  by_cases hempty : frame.dataLen = 0
  · split_ifs
    · exact h.enqueue _ hframe
    · exact h
  rw [if_neg hempty]
  cases hold : s.queuedFrames frame.offset with
  | none => exact h.insert hframe
  | some oldFrame =>
    dsimp only
    split_ifs with hlen
    · exact h
    · apply h.insert
      rwa [endOffset_dropFront (by omega)]

theorem EndsBy.pop : EndsBy n s.pop.1.queuedFrames := by
  unfold StreamFrameSorter.pop
  cases s.head with
  | none => exact h
  | some frame => exact h.delete frame.offset

end StreamFrameSorter

/-! ## The reader -/

namespace Reader

variable {φ ψ : Type*} {r : Reader φ} {id highest counted : ℕ}

/-- The same reader with another state of flow control. -/
def withFlow (r : Reader φ) (flow : ψ) : Reader ψ := ⟨r.stream, flow, r.phase, r.results⟩

/-- A reader of stream `id`, which has received bytes up to `highest`, `counted` of
which have been reported as read. -/
structure Within (id highest counted : ℕ) (r : Reader φ) : Prop where
  queue : StreamFrameSorter.EndsBy highest r.stream.frameQueue.queuedFrames
  copying : ∀ len buf f, r.phase = .copying len buf f → endOffset f ≤ highest ∧
      r.stream.readPosInFrame = (r.stream.readOffset : ℤ) - f.offset
  readOffset_le : r.stream.readOffset ≤ highest
  counted_le : counted ≤ r.stream.readOffset
  err_of_stopped : (r.stream.resetLocally || r.stream.cancelled) = true → r.stream.err ≠ none
  streamID_eq : r.stream.streamID = id

namespace Within

theorem new (streamID : ℕ) (flow : φ) :  Within streamID 0 0 (Reader.new streamID flow) where
  queue _ _ hf := by cases hf
  copying _ _ _ hphase := by cases hphase
  readOffset_le := le_rfl
  counted_le := le_rfl
  err_of_stopped h := by cases h
  streamID_eq := rfl

variable (h : Within id highest counted r)

include h

theorem mono {highest' counted' : ℕ} (hhighest : highest ≤ highest')
    (hcounted : counted' ≤ counted) :
    Within id highest' counted' r where
  queue := h.queue.mono hhighest
  copying len buf f hphase := And.imp_left (hhighest.trans' ·) (h.copying len buf f hphase)
  readOffset_le := h.readOffset_le.trans hhighest
  counted_le := hcounted.trans h.counted_le
  err_of_stopped := h.err_of_stopped
  streamID_eq := h.streamID_eq

theorem withFlow (flow : ψ) : Within id highest counted (r.withFlow flow) :=
  ⟨h.queue, h.copying, h.readOffset_le, h.counted_le, h.err_of_stopped, h.streamID_eq⟩

theorem withStream {s : Stream} (hqueue : s.frameQueue = r.stream.frameQueue)
    (hpos : s.readPosInFrame = r.stream.readPosInFrame)
    (hoffset : s.readOffset = r.stream.readOffset)
    (herr : (s.resetLocally || s.cancelled) = true → s.err ≠ none)
    (hid : s.streamID = r.stream.streamID) : Within id highest counted { r with stream := s } where
  queue := by
    rw [hqueue]
    exact h.queue
  copying := by
    rw [hpos, hoffset]
    exact h.copying
  readOffset_le := by
    rw [hoffset]
    exact h.readOffset_le
  counted_le := by
    rw [hoffset]
    exact h.counted_le
  err_of_stopped := herr
  streamID_eq := hid.trans h.streamID_eq

theorem move (phase : ReadPhase) (results : List ReadResult)
    (hphase : ∀ len buf f, phase ≠ .copying len buf f) :
    Within id highest counted { r with phase := phase, results := results } :=
  ⟨h.queue, fun len buf f hf => absurd hf (hphase len buf f), h.readOffset_le,
    h.counted_le, h.err_of_stopped, h.streamID_eq⟩

theorem ret (buf : List UInt8) (err : Option StreamError) :
    Within id highest counted (r.ret buf err) :=
  h.move .idle _ fun _ _ _ => ReadPhase.noConfusion

theorem read (len : ℕ) : Within id highest counted (r.read len) := by
  unfold Reader.read
  split
  · split_ifs
    · exact h.ret _ _
    · exact h.ret _ _
    · exact h.move _ _ fun _ _ _ => ReadPhase.noConfusion
  · exact h

theorem waitingLoop (now : ℤ) (len : ℕ) (buf : List UInt8) :
    Within id highest counted (r.waitingLoop now len buf r.stream.frameQueue.head) := by
  unfold Reader.waitingLoop
  by_cases hstopped : (r.stream.resetLocally || r.stream.cancelled) = true
  · rw [if_pos hstopped]
    cases herr : r.stream.err with
    | none => exact absurd herr (h.err_of_stopped hstopped)
    | some => exact h.ret _ _
  split_ifs
  · exact h.ret _ _
  · cases hhead : r.stream.frameQueue.head with
    | none => exact h.move _ _ fun _ _ _ => ReadPhase.noConfusion
    | some f =>
      refine ⟨h.queue, ?_, h.readOffset_le, h.counted_le, h.err_of_stopped, h.streamID_eq⟩
      intro len' buf' f' heq
      cases heq
      exact ⟨h.queue _ _ hhead, rfl⟩

theorem popFrame (len : ℕ) (buf : List UInt8) (f : StreamFrame) :
    Within id highest counted (r.popFrame len buf f) := by
  have hpop : Within id highest counted { r with
      stream := { r.stream with frameQueue := r.stream.frameQueue.pop.1 } } :=
    ⟨h.queue.pop, h.copying, h.readOffset_le, h.counted_le, h.err_of_stopped, h.streamID_eq⟩
  unfold Reader.popFrame
  split_ifs
  · exact ⟨hpop.queue, fun _ _ _ hf => (by cases hf), hpop.readOffset_le,
      hpop.counted_le, hpop.err_of_stopped, hpop.streamID_eq⟩
  · exact hpop.move _ _ fun _ _ _ => ReadPhase.noConfusion

end Within

theorem waitingLoop_unread (r : Reader φ) (now : ℤ) (len : ℕ)
    (buf : List UInt8) (frame : Option StreamFrame) :
    (r.waitingLoop now len buf frame).flow = r.flow ∧
      (r.waitingLoop now len buf frame).stream.readOffset =
        r.stream.readOffset := by
  unfold waitingLoop
  split_ifs
  · cases r.stream.err <;> cases frame <;> exact ⟨rfl, rfl⟩
  · exact ⟨rfl, rfl⟩
  · cases frame <;> exact ⟨rfl, rfl⟩

theorem read_unread (r : Reader φ) (len : ℕ) : (r.read len).flow = r.flow ∧
      (r.read len).stream.readOffset = r.stream.readOffset := by
  unfold read
  split
  · split_ifs <;> exact ⟨rfl, rfl⟩
  · exact ⟨rfl, rfl⟩

theorem popFrame_unread (r : Reader φ) (len : ℕ) (buf : List UInt8) (frame : StreamFrame) :
    (r.popFrame len buf frame).flow = r.flow ∧
      (r.popFrame len buf frame).stream.readOffset = r.stream.readOffset := by
  unfold popFrame
  split_ifs <;> exact ⟨rfl, rfl⟩

/-- What a step of a reader other than the arrival of a frame does: it either
reports no bytes to flow control, or it reports `m` bytes that it has copied. -/
inductive Progress (fc : FlowControlManager φ) (id highest counted : ℕ) (r r' : Reader φ) : Prop
  | silent (hflow : r'.flow = r.flow) (hwithin : Within id highest counted r')
      (hread : r.stream.resetRemotely = true ∨ r'.stream.readOffset = r.stream.readOffset)
  | reports (m : ℕ) (hflow : r'.flow = fc.addBytesRead r.flow id m)
      (hwithin : Within id highest (counted + m) r')
      (hremote : r.stream.resetRemotely = false)
      (hread : r'.stream.readOffset = r.stream.readOffset + m)

theorem Within.copyFrame (h : Within id highest counted r) (fc : FlowControlManager φ) {len : ℕ}
    {buf : List UInt8} {f : StreamFrame} (hphase : r.phase = .copying len buf f) :
    Progress fc id highest counted r (r.copyFrame fc len buf f) := by
  obtain ⟨hend, hpos⟩ := h.copying len buf f hphase
  have hcounted := h.counted_le
  unfold Reader.copyFrame
  dsimp only
  split
  · exact .silent rfl (h.ret _ _) (.inr rfl)
  split
  · exact .silent rfl (h.ret _ _) (.inr rfl)
  split
  · exact .silent rfl (h.move _ _ fun _ _ _ => ReadPhase.noConfusion) (.inr rfl)
  generalize hm : (chunk f r.stream.readPosInFrame.toNat (len - buf.length)).length = m
  -- the bytes copied end inside the frame
  have hm_le : r.stream.readOffset + m ≤ highest := by
    unfold chunk at hm
    rw [List.length_take] at hm
    unfold endOffset at hend
    omega
  have hphase' : ∀ len' buf' f', (if (f.dataLen : ℤ) ≤ r.stream.readPosInFrame + m then
        ReadPhase.popping len (buf ++ chunk f r.stream.readPosInFrame.toNat (len - buf.length)) f
      else .loopTest len (buf ++ chunk f r.stream.readPosInFrame.toNat
        (len - buf.length))) ≠ .copying len' buf' f' := by
    intro len' buf' f'
    split_ifs <;> exact ReadPhase.noConfusion
  by_cases hremote : r.stream.resetRemotely = true
  · simp only [if_pos hremote]
    refine .silent rfl ?_ (.inl hremote)
    exact ⟨h.queue, fun len' buf' f' hf => absurd hf (hphase' len' buf' f'),
      hm_le, hcounted.trans (Nat.le_add_right _ _), h.err_of_stopped, h.streamID_eq⟩
  · simp only [if_neg hremote]
    refine .reports m (by rw [h.streamID_eq]) ?_ (by simpa using hremote) rfl
    exact ⟨h.queue, fun len' buf' f' hf => absurd hf (hphase' len' buf' f'),
      hm_le, Nat.add_le_add_right hcounted m, h.err_of_stopped, h.streamID_eq⟩

theorem Within.advance (h : Within id highest counted r) (fc : FlowControlManager φ) (now : ℤ) :
    Progress fc id highest counted r (r.advance fc now) := by
  unfold Reader.advance
  cases hphase : r.phase with
  | idle | panicked => exact .silent rfl h (.inr rfl)
  | loopTest len buf =>
    dsimp only
    split_ifs
    · exact .silent rfl (h.ret _ _) (.inr rfl)
    · exact .silent rfl (h.ret _ _) (.inr rfl)
    · obtain ⟨hflow, hread⟩ := r.waitingLoop_unread now len buf r.stream.frameQueue.head
      exact .silent hflow (h.waitingLoop now len buf) (.inr hread)
  | waiting len buf deadline =>
    have hsignalled : Within id highest counted
        { r with stream := { r.stream with readChan := false } } :=
      h.withStream rfl rfl rfl h.err_of_stopped rfl
    dsimp only
    split_ifs
    · obtain ⟨hflow, hread⟩ := waitingLoop_unread
        { r with stream := { r.stream with readChan := false } } now len buf
        r.stream.frameQueue.head
      exact .silent hflow (hsignalled.waitingLoop now len buf) (.inr hread)
    · obtain ⟨hflow, hread⟩ := r.waitingLoop_unread now len buf r.stream.frameQueue.head
      exact .silent hflow (h.waitingLoop now len buf) (.inr hread)
    · exact .silent rfl h (.inr rfl)
  | copying => exact h.copyFrame fc hphase
  | popping len buf f =>
    obtain ⟨hflow, hread⟩ := r.popFrame_unread len buf f
    exact .silent hflow (h.popFrame len buf f) (.inr hread)

theorem Within.step (h : Within id highest counted r) (fc : FlowControlManager φ) {e : Event}
    (he : ∀ f, e ≠ .addStreamFrame f) : Progress fc id highest counted r (r.step fc e) := by
  cases e with
  | addStreamFrame f => exact absurd rfl (he f)
  | setReadDeadline t =>
    unfold Reader.step Stream.setReadDeadline
    dsimp only
    split_ifs <;> exact .silent rfl (h.withStream rfl rfl rfl h.err_of_stopped rfl) (.inr rfl)
  | read len =>
    obtain ⟨hflow, hread⟩ := r.read_unread len
    exact .silent hflow (h.read len) (.inr hread)
  | advance now => exact h.advance fc now

variable (s : Stream) (fc : FlowControlManager φ) (flow : φ) (f : StreamFrame)

theorem addStreamFrame_flow : (s.addStreamFrame fc flow f).1 =
      (fc.updateHighestReceived flow s.streamID (endOffset f)).1 := by
  unfold Stream.addStreamFrame
  rcases fc.updateHighestReceived flow s.streamID (endOffset f) with
    ⟨flow, _ | err⟩
  · rcases s.frameQueue.push f with ⟨queue, _ | err⟩
    · rfl
    · cases err <;> rfl
  · rfl

theorem addStreamFrame_readOffset : (s.addStreamFrame fc flow f).2.1.readOffset = s.readOffset := by
  rcases s.addStreamFrame_stream fc flow f with ⟨-, hsame⟩ | ⟨-, _, hpush⟩
  · rw [hsame]
  · rw [hpush]

variable (h : Within id highest counted r)

include h

/-- An arriving frame is within what flow control has accepted with it. -/
theorem Within.addStreamFrame (fc : FlowControlManager φ) {f : StreamFrame} {highest' : ℕ}
    (hle : highest ≤ highest') (hf : endOffset f ≤ highest') :
    Within id highest' counted (r.step fc (.addStreamFrame f)) := by
  have hkept := h.mono hle le_rfl
  have hstep : r.step fc (.addStreamFrame f) =
      { r with
        stream := (r.stream.addStreamFrame fc r.flow f).2.1
        flow := (r.stream.addStreamFrame fc r.flow f).1 } := rfl
  rw [hstep]
  rcases r.stream.addStreamFrame_stream fc r.flow f with
    ⟨-, hsame⟩ | ⟨-, readChan, hpush⟩
  · rw [hsame]
    exact ⟨hkept.queue, hkept.copying, hkept.readOffset_le, hkept.counted_le,
      hkept.err_of_stopped, hkept.streamID_eq⟩
  · rw [hpush]
    exact ⟨hkept.queue.push hf, hkept.copying, hkept.readOffset_le,
      hkept.counted_le, hkept.err_of_stopped, hkept.streamID_eq⟩

variable (err : StreamError)

theorem Within.cancel : Within id highest counted { r with stream := r.stream.cancel err } := by
  unfold Stream.cancel
  dsimp only
  split_ifs with hnone
  · exact h.withStream rfl rfl rfl (fun _ => Option.some_ne_none err) rfl
  · exact h.withStream rfl rfl rfl (fun _ => hnone) rfl

theorem Within.sendReset : Within id highest counted { r with stream := r.stream.sendReset.1 } := by
  unfold Stream.sendReset
  split_ifs
  · exact h.withStream rfl rfl rfl h.err_of_stopped rfl
  · exact h

theorem Within.reset : Within id highest counted { r with stream := (r.stream.reset err).1 } := by
  unfold Stream.reset
  split_ifs with hlocal
  · exact h
  dsimp only
  split_ifs with hnone
  · have hstopped := h.withStream (s :=
        { r.stream with
          resetLocally := true
          err := some err }.signalRead.signalWrite)
      rfl rfl rfl (fun _ => Option.some_ne_none err) rfl
    exact hstopped.sendReset
  · have hstopped := h.withStream (s := { r.stream with resetLocally := true })
      rfl rfl rfl (fun _ => hnone) rfl
    exact hstopped.sendReset

theorem Within.registerRemoteError :
    Within id highest counted { r with stream := (r.stream.registerRemoteError err).1 } := by
  unfold Stream.registerRemoteError
  split_ifs with hremote
  · exact h
  dsimp only
  split_ifs with hnone
  · have hreset := h.withStream (s :=
        { r.stream with
          resetRemotely := true
          err := some err }.signalWrite)
      rfl rfl rfl (fun _ => Option.some_ne_none err) rfl
    exact hreset.sendReset
  · have hreset := h.withStream (s := { r.stream with resetRemotely := true })
      rfl rfl rfl h.err_of_stopped rfl
    exact hreset.sendReset

end Reader

/-! ## Reading in order -/

namespace StreamFrameSorter

variable {frame : StreamFrame}

/-- All bytes up to `n` have been popped, and no others have arrived. -/
def emptyAt (n : ℕ) : StreamFrameSorter where
  queuedFrames _ := none
  readPosition := n
  gaps := [⟨n, maxByteCount⟩]

/-- The same with one more frame, which comes next. -/
def holding (frame : StreamFrame) : StreamFrameSorter where
  queuedFrames := update (fun _ => none) frame.offset (some frame)
  readPosition := frame.offset
  gaps := [⟨endOffset frame, maxByteCount⟩]

theorem push_emptyAt (hlen : 0 < frame.dataLen) (hend : endOffset frame < maxByteCount) :
    (emptyAt frame.offset).push frame = (holding frame, none) := by
  have hstart : frame.offset < endOffset frame := Nat.lt_add_of_pos_right hlen
  have hgap : findGap frame.offset (endOffset frame) [⟨frame.offset, maxByteCount⟩] =
      .found [] ⟨frame.offset, maxByteCount⟩ [] := by
    rw [findGap, if_neg (not_le.mpr hstart), if_pos]
    exact ⟨hstart, (hstart.trans hend).le⟩
  have hendGap : findEndGap (endOffset frame) true
      ⟨frame.offset, maxByteCount⟩ [] (fun _ => none) =
      .ok ⟨⟨frame.offset, maxByteCount⟩, true, false, [], fun _ => none⟩ := by
    rw [findEndGap, if_pos hend]
  have hgaps : updateGaps frame.offset (endOffset frame)
      ⟨frame.offset, maxByteCount⟩
      ⟨⟨frame.offset, maxByteCount⟩, true, false, [], fun _ => none⟩ =
      [⟨endOffset frame, maxByteCount⟩] := by
    unfold updateGaps
    rw [if_pos rfl, if_pos rfl, if_neg (not_le.mpr hend)]
  unfold push insert emptyAt
  simp only [if_neg hlen.ne', hgap, lt_irrefl, if_false]
  unfold fillGaps
  simp only [hendGap, if_neg (not_lt.mpr hend.le), hgaps]
  rfl

theorem head_holding (frame : StreamFrame) : (holding frame).head = some frame := by
  simp [head, holding]

theorem pop_holding (frame : StreamFrame) :
    (holding frame).pop = (emptyAt (endOffset frame), some frame) := by
  unfold pop
  rw [head_holding]
  unfold holding emptyAt
  simp [endOffset]

end StreamFrameSorter

namespace Reader

variable {φ : Type*} {r : Reader φ} {id : ℕ} {f : StreamFrame}

/-- The application has read all that has arrived and is not reading now. -/
structure Drained (id n : ℕ) (r : Reader φ) : Prop where
  phase : r.phase = .idle
  streamID_eq : r.stream.streamID = id
  cancelled : r.stream.cancelled = false
  resetLocally : r.stream.resetLocally = false
  resetRemotely : r.stream.resetRemotely = false
  finishedReading : r.stream.finishedReading = false
  readDeadline : r.stream.readDeadline = 0
  readOffset : r.stream.readOffset = n
  queue : r.stream.frameQueue = .emptyAt n

theorem Drained.withFlow {ψ : Type*} {n : ℕ} (h : Drained id n r) (flow : ψ) :
    Drained id n (r.withFlow flow) :=
  ⟨h.phase, h.streamID_eq, h.cancelled, h.resetLocally, h.resetRemotely,
    h.finishedReading, h.readDeadline, h.readOffset, h.queue⟩

/-- A frame arrives and is read. -/
def readFrame (f : StreamFrame) : List Event :=
  [.addStreamFrame f, .read f.dataLen, .advance 0, .advance 0, .advance 0, .advance 0]

theorem copyFrame_all (r : Reader φ) (fc : FlowControlManager φ) (f : StreamFrame)
    (hpos : r.stream.readPosInFrame = 0) (hremote : r.stream.resetRemotely = false) :
    r.copyFrame fc f.dataLen [] f =
      { r with
        stream := { r.stream with
          readPosInFrame := f.dataLen
          readOffset := r.stream.readOffset + f.dataLen }
        flow := fc.addBytesRead r.flow r.stream.streamID f.dataLen
        phase := .popping f.dataLen f.data f } := by
  have hlen : ¬(f.dataLen : ℤ) < 0 := by omega
  have hchunk : chunk f 0 f.dataLen = f.data := by
    simp [chunk, StreamFrame.dataLen]
  unfold copyFrame
  simp only [hpos, hremote, List.length_nil, if_false, hlen, Int.toNat_zero, Nat.sub_zero, hchunk,
    lt_irrefl]
  simp [StreamFrame.dataLen]

theorem Drained.step_addStreamFrame (h : Drained id f.offset r) (fc : FlowControlManager φ)
    (hlen : 0 < f.dataLen) (hend : endOffset f < maxByteCount)
    (haccepted : (fc.updateHighestReceived r.flow id (endOffset f)).2 = none) :
    r.step fc (.addStreamFrame f) =
      { r with
        stream := { r.stream with
          frameQueue := .holding f
          readChan := true }
        flow := (fc.updateHighestReceived r.flow id (endOffset f)).1 } := by
  have hflow : fc.updateHighestReceived r.flow r.stream.streamID (endOffset f) =
      ((fc.updateHighestReceived r.flow id (endOffset f)).1, none) := by
    rw [h.streamID_eq, ← haccepted]
  simp only [step, Stream.addStreamFrame, hflow, h.queue, push_emptyAt hlen hend]
  rfl

/-- The next frame is delivered by a call of `Read` of its length. -/
theorem Drained.run_readFrame (h : Drained id f.offset r) (fc : FlowControlManager φ)
    (hlen : 0 < f.dataLen) (hend : endOffset f < maxByteCount) (hfin : f.finBit = false)
    (haccepted : (fc.updateHighestReceived r.flow id (endOffset f)).2 = none) :
    run (Reader.step fc) r (readFrame f) =
      { r with
        stream := { r.stream with
          frameQueue := .emptyAt (endOffset f)
          readChan := true
          readPosInFrame := f.dataLen
          readOffset := endOffset f }
        flow := fc.addBytesRead (fc.updateHighestReceived r.flow id (endOffset f)).1 id f.dataLen
        phase := .idle
        results := r.results ++ [⟨f.data, none⟩] } := by
  have harrive := h.step_addStreamFrame fc hlen hend haccepted
  unfold readFrame
  rw [run_cons, harrive]
  generalize (fc.updateHighestReceived r.flow id (endOffset f)).1 = flow
  have hread : Reader.step fc
      { r with
        stream := { r.stream with frameQueue := .holding f, readChan := true }
        flow := flow } (.read f.dataLen) =
      { r with
        stream := { r.stream with frameQueue := .holding f, readChan := true }
        flow := flow
        phase := .loopTest f.dataLen [] } := by
    simp [step, read, h.phase, h.cancelled, h.resetLocally, h.finishedReading]
  have htake : Reader.step fc
      { r with
        stream := { r.stream with frameQueue := .holding f, readChan := true }
        flow := flow
        phase := .loopTest f.dataLen [] } (.advance 0) =
      { r with
        stream := { r.stream with
          frameQueue := .holding f
          readChan := true
          readPosInFrame := 0 }
        flow := flow
        phase := .copying f.dataLen [] f } := by
    simp [step, advance, waitingLoop, h.cancelled, h.resetLocally,
      h.readDeadline, head_holding, hlen.ne', h.readOffset]
  have hcopy := copyFrame_all
    { r with
      stream := { r.stream with
        frameQueue := .holding f
        readChan := true
        readPosInFrame := 0 }
      flow := flow
      phase := .copying f.dataLen [] f } fc f rfl h.resetRemotely
  rw [run_cons, hread, run_cons, htake, run_cons, step, advance]
  dsimp only
  rw [hcopy]
  simp [step, advance, popFrame, ret, hfin, pop_holding,
    h.readOffset, h.streamID_eq, endOffset, StreamFrame.dataLen]

end Reader

end Pstream.Stream
