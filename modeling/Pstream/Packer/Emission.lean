import Mathlib.Algebra.Order.BigOperators.Group.List
import Mathlib.Algebra.Order.Group.Nat
import Pstream.FlowControl.FlowControlManager
import Pstream.Packer.FrameLengths
import Pstream.Support.Run

/-!
# The new frames of a stream

The application writes to streams and closes them; the framer, asked for frames of a
given length, cuts new STREAM frames from the data.  The offset, the data and the
FIN are kept by the stream, the windows by the flow control manager and the length
that is left by the framer.  This module follows all of them through the calls: the
frames keep to the length and to the windows, and the frames of one stream cut the
written data into consecutive slices, with the FIN at the end.

No write deadline is set here, so that a call of `Write` lasts until its data has been
taken.
-/

namespace Pstream.Packer

open Option List Function FlowControl Pstream.Stream Support Wire

/-! ## The frames of one call -/

section Visits

variable {φ κ : Type}

/-- How a call pops frames: streams are visited one after the other, and a visit pops a
frame that fits into the remaining length, or nothing.  The state of the scheduler is
of no importance here. -/
inductive Visits (fc : SendControl φ) (maxBytes : ℕ) :
    ℕ → Streams φ κ → List StreamFrame → Streams φ κ → Prop
  | done (currentLen : ℕ) (st : Streams φ κ) (k : κ) :
      Visits fc maxBytes currentLen st [] { st with scheduler := k }
  | pop {currentLen streamID : ℕ} {st st' : Streams φ κ} {s s' : Stream}
      {f : StreamFrame} {frames : List StreamFrame} (k : κ)
      (hs : st.streams streamID = some s) (hle : currentLen ≤ maxBytes)
      (hpops : Pops fc st.flow (maxBytes - currentLen) s s' f)
      (rest : Visits fc maxBytes (currentLen + (f.minLength + f.dataLen))
        { streams := update st.streams streamID (some s')
          flow := fc.addBytesSent st.flow f.streamID f.dataLen
          scheduler := k } frames st') :
      Visits fc maxBytes currentLen st (f :: frames) st'

/-- The rule changes nothing of a stream but the volumes of the paths. -/
def PopRule.KeepsStream (rule : PopRule κ) : Prop :=
  ∀ s, ∃ pathVolume, rule.noteStream s = { s with pathVolume := pathVolume }

theorem PopRule.keepsStream_always : (PopRule.always κ).KeepsStream := fun s => ⟨s.pathVolume, rfl⟩

theorem StreamScheduler.keepsStream_ruleOfPath (sch : StreamScheduler κ)
    (pathID : PathID) : (sch.ruleOfPath pathID).KeepsStream :=
  fun _ => ⟨_, rfl⟩

variable {fc : SendControl φ} {flow : φ} {room streamID maxBytes currentLen : ℕ}
  {s s' : Stream} {f : StreamFrame} {rule : PopRule κ} {st : Streams φ κ}

theorem Pops.noteStream (h : Pops fc flow room s s' f) (hrule : rule.KeepsStream) :
    Pops fc flow room s (rule.noteStream s') f := by
  obtain ⟨pathVolume, heq⟩ := hrule s'
  rw [heq]
  exact ⟨h.streamID, h.offset, h.dataLenPresent, h.fits, h.window, h.nonempty,
    h.data, h.fin, h.noFin, h.keepsID, h.writeOffset, h.finishedWriting⟩

/-- The length of a stream's data, with the header of a frame. -/
def pendingOf (s : Option Stream) : ℕ := 15 + s.elim 0 fun s => (s.dataForWriting.getD []).length

/-- The length of the frames that visits to some streams can pop at most. -/
def pendingLength (st : Streams φ κ) (order : List ℕ) : ℕ :=
  (order.map fun streamID => pendingOf (st.streams streamID)).sum

theorem Pops.length_le (h : Pops fc flow room s s' f) :
    f.minLength + f.dataLen ≤ pendingOf (some s) := by
  have hdata := congrArg List.length h.data
  have hheader := minLength_le f
  rw [length_append] at hdata
  rw [pendingOf, elim_some, StreamFrame.dataLen]
  omega

theorem pendingLength_pop_le (hs : st.streams streamID = some s)
    (h : Pops fc flow room s s' f) (flow' : φ) (k : κ) (order : List ℕ) :
    pendingLength ⟨update st.streams streamID (some s'), flow', k⟩
      order ≤ pendingLength st order := by
  apply sum_le_sum
  intro id _
  by_cases hid : id = streamID
  · have hdata := congrArg List.length h.data
    rw [length_append] at hdata
    rw [hid, hs]
    simp only [update_self, pendingOf, elim_some]
    omega
  · simp [update_of_ne hid]

theorem record_cases (fc : SendControl φ) (hrule : rule.KeepsStream)
    (hs : st.streams streamID = some s) (hle : currentLen ≤ maxBytes)
    (hmax : maxBytes < 2 ^ 64) (hlen : currentLen + 15 < 2 ^ 64) :
    let v := popFromStream fc rule maxBytes currentLen st.flow st.scheduler s
    (v.frame = none ∧ st.record streamID v = st) ∨
    ∃ f s' k, v.frame = some f ∧ Pops fc st.flow (maxBytes - currentLen) s s' f ∧
      st.record streamID v =
        ⟨update st.streams streamID (some s'),
          fc.addBytesSent st.flow f.streamID f.dataLen, k⟩ := by
  rcases popFromStream_cases fc rule st.flow st.scheduler s hle hmax hlen with
    ⟨hframe, hstream, hflow, hsch⟩ | ⟨f, s', hframe, hstream, hflow, hpops⟩
  · refine .inl ⟨hframe, ?_⟩
    rw [Streams.record, hstream, hflow, hsch, ← hs, update_eq_self]
  · refine .inr ⟨f, rule.noteStream s',
      (popFromStream fc rule maxBytes currentLen st.flow st.scheduler s).scheduler,
      hframe, hpops.noteStream hrule, ?_⟩
    rw [Streams.record, hstream, hflow]

/-- An iterator with the closure pops frames this way.  The lengths do not overflow, as
the data of the streams does not fill the address space. -/
theorem popFromStreams_visits (fc : SendControl φ) (hrule : rule.KeepsStream) (st : Streams φ κ)
    (order : List ℕ) (hle : currentLen ≤ maxBytes) (hmax : maxBytes < 2 ^ 64)
    (hmem : maxBytes + 15 < 2 ^ 64 ∨ currentLen + pendingLength st order + 15 < 2 ^ 64) (k : κ) :
    let r := st.popFromStreams fc rule maxBytes currentLen order
    Visits fc maxBytes currentLen st r.frames { r.streams with scheduler := k } := by
  induction order generalizing currentLen st with
  | nil => exact .done currentLen st k
  | cons streamID rest ih =>
    rw [pendingLength, map_cons, sum_cons] at hmem
    rw [Streams.popFromStreams]
    cases hs : st.streams streamID with
    | none =>
      apply ih st hle
      rw [pendingLength]
      omega
    | some s =>
      have hlen : currentLen + 15 < 2 ^ 64 := by
        omega
      dsimp only
      rcases record_cases fc hrule hs hle hmax hlen with
        ⟨hframe, hrecord⟩ | ⟨f, s', k', hframe, hpops, hrecord⟩
      · rw [hrecord, hframe]
        split_ifs
        · rw [elim_none, addByteCount_of_lt (by omega)]
          apply ih st hle
          rw [pendingLength]
          omega
        · exact .done currentLen st k
      · have hfits := hpops.fits
        have hpending := hpops.length_le
        have hrest := pendingLength_pop_le hs hpops
          (fc.addBytesSent st.flow f.streamID f.dataLen) k' rest
        rw [hrecord, hframe]
        split_ifs
        · have hsum : addByteCount f.minLength f.dataLen =
              f.minLength + f.dataLen := addByteCount_of_lt (by omega)
          rw [elim_some, hsum, addByteCount_of_lt (by omega)]
          refine .pop k' hs hle hpops (ih _ (by omega) ?_)
          rw [← hs] at hpending
          rw [pendingLength, pendingLength] at hrest
          rw [pendingLength]
          omega
        · exact .pop k' hs hle hpops (.done _ _ k)

theorem send_visits (fc : SendControl φ) (st : Streams φ κ)
    (hmax : maxBytes < 2 ^ 64) (hs : st.streams streamID = some s) :
    let v := send fc maxBytes st.flow st.scheduler s
    Visits fc maxBytes 0 st v.frame.toList (st.record streamID v) := by
  unfold send
  dsimp only
  rcases record_cases fc PopRule.keepsStream_always hs (Nat.zero_le maxBytes) hmax (by omega) with
    ⟨hframe, hrecord⟩ | ⟨f, s', k, hframe, hpops, hrecord⟩
  · rw [hframe, hrecord]
    exact .done 0 st st.scheduler
  · rw [hframe, hrecord]
    exact .pop k hs (Nat.zero_le maxBytes) hpops (.done _ _ k)

theorem Visits.withScheduler {st' : Streams φ κ} {frames : List StreamFrame} {k : κ}
    (h : Visits fc maxBytes currentLen { st with scheduler := k } frames st') :
    Visits fc maxBytes currentLen st frames st' := by
  cases h with
  | done _ _ k' => exact .done currentLen st k'
  | pop k' hs hle hpops rest => exact .pop k' hs hle hpops rest

/-- The calls that produce new frames. -/
inductive PopCall
  | send (streamID : ℕ)
  | maybePopNormalFrames
  | maybePopNormalFramesOfPath (pathID : PathID)
  | maybePopNormalFramesOfOneStream (streamID : ℕ)
deriving DecidableEq, Repr

/-- The frames that a call returns, and the state after it. -/
def PopCall.run (fc : SendControl φ) (sch : StreamScheduler κ) (st : Streams φ κ) (maxBytes : ℕ) :
    PopCall → List StreamFrame × List BlockedFrame × Streams φ κ
  | .send streamID =>
    match st.streams streamID with
    | none => ([], [], st)
    | some s =>
      let v := Packer.send fc maxBytes st.flow st.scheduler s
      (v.frame.toList, v.blocked, st.record streamID v)
  | .maybePopNormalFrames => st.maybePopNormalFrames fc sch maxBytes
  | .maybePopNormalFramesOfPath pathID =>
    st.maybePopNormalFramesOfPath fc sch maxBytes pathID
  | .maybePopNormalFramesOfOneStream streamID =>
    st.maybePopNormalFramesOfOneStream fc maxBytes streamID

/-- The streams that the iterator of a call visits. -/
def PopCall.order (sch : StreamScheduler κ) (st : Streams φ κ) : PopCall → List ℕ
  | .send _ => []
  | .maybePopNormalFrames =>
    if sch.usesSend then [] else sch.iterate st.scheduler st.streams
  | .maybePopNormalFramesOfPath pathID =>
    sch.iterateOfPath st.scheduler st.streams pathID
  | .maybePopNormalFramesOfOneStream streamID => [streamID]

/-- The data of the streams that a call visits does not fill the address space: the
lengths of the frames do not overflow. -/
def PopCall.InMemory (sch : StreamScheduler κ) (st : Streams φ κ)
    (maxBytes : ℕ) (call : PopCall) : Prop :=
  maxBytes < 2 ^ 64 ∧ (maxBytes + 15 < 2 ^ 64 ∨ pendingLength st (call.order sch st) + 15 < 2 ^ 64)

theorem PopCall.visits (sch : StreamScheduler κ)
    (call : PopCall) (hmem : call.InMemory sch st maxBytes) :
    Visits fc maxBytes 0 st (call.run fc sch st maxBytes).1 (call.run fc sch st maxBytes).2.2 := by
  obtain ⟨hmax, hmem⟩ := hmem
  cases call with
  | send streamID =>
    dsimp only [PopCall.run]
    cases hs : st.streams streamID with
    | none => exact .done 0 st st.scheduler
    | some => exact send_visits fc st hmax hs
  | maybePopNormalFrames =>
    dsimp only [PopCall.run, PopCall.order] at hmem ⊢
    unfold Streams.maybePopNormalFrames
    by_cases huses : sch.usesSend = true
    · rw [if_pos huses]
      dsimp only
      split
      · exact .done 0 st _
      · rename_i streamID s hchosen
        obtain ⟨id, -, hid⟩ := bind_eq_some_iff.mp hchosen
        obtain ⟨s', hs, heq⟩ := map_eq_some_iff.mp hid
        cases heq
        exact (send_visits fc
          { st with scheduler := (sch.schedule st.scheduler st.streams).2 }
          hmax hs).withScheduler
    · rw [if_neg huses] at hmem ⊢
      exact popFromStreams_visits fc PopRule.keepsStream_always st _
        (Nat.zero_le maxBytes) hmax (by omega) _
  | maybePopNormalFramesOfPath pathID =>
    exact popFromStreams_visits fc (sch.keepsStream_ruleOfPath pathID) st _
      (Nat.zero_le maxBytes) hmax (by rwa [Nat.zero_add]) _
  | maybePopNormalFramesOfOneStream streamID =>
    exact popFromStreams_visits fc PopRule.keepsStream_always st _
      (Nat.zero_le maxBytes) hmax (by rwa [Nat.zero_add]) _

end Visits

/-! ## What the frames of a call keep to -/

/-- The data of a frame fits into the window of its stream and, if the stream
contributes to it, into that of the connection. -/
def WithinWindows (f : Manager) (frame : StreamFrame) : Prop :=
  frame.data = [] ∨ ∃ c, f.streamFlowController frame.streamID = some c ∧
      frame.dataLen ≤ c.sendWindowSize f.connectionParameters ∧
      (c.contributesToConnection = true → frame.dataLen ≤
        f.connFlowController.sendWindowSize f.connectionParameters)

/-- The frames of a call, after `currentLen` bytes: each one fits into the bytes that
are left, has data or a FIN, and fits into the windows that are left once the bytes
of the frames before it have been counted. -/
def Allowed (maxBytes : ℕ) : ℕ → Manager → List StreamFrame → Prop
  | _, _, [] => True
  | currentLen, f, frame :: frames =>
    frame.minLength + frame.dataLen ≤ maxBytes - currentLen ∧
    (frame.data ≠ [] ∨ frame.finBit = true) ∧ WithinWindows f frame ∧
    Allowed maxBytes (currentLen + (frame.minLength + frame.dataLen))
      (f.addBytesSent frame.streamID frame.dataLen) frames

theorem withinWindows_of_sendWindowSize {f : Manager} {frame : StreamFrame}
    (h : frame.dataLen ≤ Manager.sendControl.sendWindowSize f frame.streamID) :
    WithinWindows f frame := by
  change frame.dataLen ≤ (f.sendWindowSize frame.streamID).toOption.getD 0 at h
  unfold Manager.sendWindowSize at h
  split at h
  · exact .inl (length_eq_zero_iff.mp (Nat.le_zero.mp h))
  · rename_i c hc
    refine .inr ⟨c, hc, ?_⟩
    by_cases hcontributes : c.contributesToConnection = true
    · have h : frame.dataLen ≤ min (c.sendWindowSize f.connectionParameters)
          (f.connFlowController.sendWindowSize f.connectionParameters) := by
        simpa [hcontributes, Except.toOption] using h
      exact ⟨h.trans (min_le_left _ _), fun _ => h.trans (min_le_right _ _)⟩
    · have h : frame.dataLen ≤ c.sendWindowSize f.connectionParameters := by
        simpa [hcontributes, Except.toOption] using h
      exact ⟨h, fun hc => absurd hc hcontributes⟩

variable {frames emitted : List StreamFrame} {streamID : ℕ} {written : List UInt8} {s : Stream}

theorem Visits.allowed {κ : Type} {maxBytes currentLen : ℕ} {st st' : Streams Manager κ}
    (h : Visits Manager.sendControl maxBytes currentLen st frames st') :
    Allowed maxBytes currentLen st.flow frames := by
  induction h with
  | done => trivial
  | pop k hs hle hpops rest ih =>
    refine ⟨hpops.fits, hpops.nonempty, ?_, ih⟩
    apply withinWindows_of_sendWindowSize
    rw [hpops.streamID]
    exact hpops.window

/-! ## Writers and frames -/

/-- The streams of a session and the application that writes to them, with the data
that `Write` has accepted for each stream and the new frames in their order. -/
structure Sender (κ : Type) where
  streams : Streams Manager κ
  written : ℕ → List UInt8
  emitted : List StreamFrame

namespace Sender

variable {κ : Type}

/-- What can happen to the streams. -/
inductive Event
  | openStream (streamID : ℕ) (contributesToConnection : Bool)
  | write (streamID : ℕ) (p : List UInt8)
  | close (streamID : ℕ)
  | updateWindow (streamID offset : ℕ)
  | negotiate (connectionParameters : ConnectionParameters)
  | pop (call : PopCall) (maxBytes : ℕ)

def setStream (s : Sender κ) (streamID : ℕ) (str : Stream) : Sender κ :=
  { s with
    streams := { s.streams with
      streams := update s.streams.streams streamID (some str) } }

/-- A call of `Write`.  While the data of a call has not been taken the call lasts,
and there is no other one. -/
def write (s : Sender κ) (streamID : ℕ) (p : List UInt8) : Sender κ :=
  match s.streams.streams streamID with
  | none => s
  | some str =>
    if str.dataForWriting.isSome then s
    else if (str.write p).dataForWriting = none then s
    else
      { s.setStream streamID (str.write p) with
        written := update s.written streamID (s.written streamID ++ p) }

def step (sch : StreamScheduler κ) (s : Sender κ) : Event → Sender κ
  | .openStream streamID contributesToConnection =>
    match s.streams.streams streamID with
    | some _ => s
    | none =>
      { s.setStream streamID (.newStream streamID) with
        streams := { (s.setStream streamID (.newStream streamID)).streams with
          flow := s.streams.flow.newStream streamID contributesToConnection } }
  | .write streamID p => s.write streamID p
  | .close streamID =>
    match s.streams.streams streamID with
    | none => s
    | some str => s.setStream streamID str.close
  | .updateWindow streamID offset =>
    { s with streams := { s.streams with
        flow := (s.streams.flow.updateWindow streamID offset).1 } }
  | .negotiate connectionParameters =>
    { s with streams := { s.streams with
        flow := { s.streams.flow with
          connectionParameters := connectionParameters } } }
  | .pop call maxBytes =>
    let r := call.run Manager.sendControl sch s.streams maxBytes
    { s with streams := r.2.2, emitted := s.emitted ++ r.1 }

/-- A session without streams. -/
def new (p : ConnectionParameters) (scheduler : κ) : Sender κ where
  streams := ⟨fun _ => none, .newFlowControlManager p, scheduler⟩
  written := fun _ => []
  emitted := []

end Sender

/-! ## The frames of a stream -/

/-- Each frame begins where the one before it ends. -/
def Consecutive : ℕ → List StreamFrame → Prop
  | _, [] => True
  | offset, f :: fs => f.offset = offset ∧ Consecutive (endOffset f) fs

def framesOf (emitted : List StreamFrame) (streamID : ℕ) : List StreamFrame :=
  emitted.filter (·.streamID = streamID)

def dataOf (fs : List StreamFrame) : List UInt8 := fs.flatMap (·.data)

theorem consecutive_concat {offset : ℕ} {fs : List StreamFrame} {f : StreamFrame}
    (h : Consecutive offset fs) (hf : f.offset = offset + (dataOf fs).length) :
    Consecutive offset (fs ++ [f]) := by
  induction fs generalizing offset with
  | nil => exact ⟨by simpa [dataOf] using hf, trivial⟩
  | cons g fs ih =>
    refine ⟨h.1, ih h.2 ?_⟩
    rw [hf, endOffset, h.1, StreamFrame.dataLen]
    simp [dataOf, Nat.add_assoc]

/-- The frames cut the written data into consecutive slices; a FIN is on the last frame
and comes when all data has been emitted. -/
structure Segments (written : List UInt8) (frames : List StreamFrame) : Prop where
  consecutive : Consecutive 0 frames
  data : dataOf frames <+: written
  fin_last : ∀ f ∈ frames.dropLast, f.finBit = false
  fin_all : ∀ f ∈ frames, f.finBit = true → dataOf frames = written

/-- What a stream knows of the frames that were cut from it. -/
structure Tracks (streamID : ℕ) (written : List UInt8)
    (frames : List StreamFrame) (s : Stream) : Prop where
  streamID_eq : s.streamID = streamID
  consecutive : Consecutive 0 frames
  writeOffset : s.writeOffset = (dataOf frames).length
  data : dataOf frames ++ s.dataForWriting.getD [] = written
  open_noFin : s.finSent = false → ∀ f ∈ frames, f.finBit = false
  closed : s.finSent = true → s.finishedWriting = true ∧
    s.dataForWriting = none ∧ ∀ f ∈ frames.dropLast, f.finBit = false

theorem tracks_new (streamID : ℕ) : Tracks streamID [] [] (.newStream streamID) :=
  ⟨rfl, trivial, rfl, rfl, nofun, nofun⟩

section

variable (h : Tracks streamID written frames s)

include h

theorem Tracks.segments : Segments written frames := by
  cases hsent : s.finSent with
  | false =>
    have hnoFin := h.open_noFin hsent
    refine ⟨h.consecutive, ⟨_, h.data⟩, ?_, ?_⟩
    · intro f hf
      exact hnoFin f (mem_of_mem_dropLast hf)
    · intro f hf hfin
      rw [hnoFin f hf] at hfin
      cases hfin
  | true =>
    obtain ⟨-, hnone, hlast⟩ := h.closed hsent
    have hdata := h.data
    rw [hnone, getD_none, append_nil] at hdata
    exact ⟨h.consecutive, ⟨[], by rw [hdata, append_nil]⟩, hlast, fun _ _ _ => hdata⟩

/-- Data that `Write` accepts comes behind all that was emitted. -/
theorem Tracks.write (hnone : s.dataForWriting = none) (hopen : s.finishedWriting = false)
    (p : List UInt8) :
    Tracks streamID (written ++ p) frames { s with dataForWriting := some p } := by
  have hdata := h.data
  rw [hnone, getD_none, append_nil] at hdata
  refine ⟨h.streamID_eq, h.consecutive, h.writeOffset, ?_, h.open_noFin, ?_⟩
  · rw [hdata]
    rfl
  · intro hsent
    have hfinished := (h.closed hsent).1
    rw [hopen] at hfinished
    cases hfinished

theorem Tracks.pops {φ : Type} {fc : SendControl φ} {flow : φ} {room : ℕ} {s' : Stream}
    {f : StreamFrame} (hpops : Pops fc flow room s s' f) :
    Tracks streamID written (frames ++ [f]) s' := by
  have hdata : dataOf (frames ++ [f]) = dataOf frames ++ f.data := by
    simp [dataOf]
  have hsent : s.finSent = false := by
    -- once the FIN was sent there is nothing more to send
    by_contra hsent
    obtain ⟨-, hnone, -⟩ := h.closed (by simpa using hsent)
    have hempty := hpops.data
    rw [hnone, getD_none, append_eq_nil_iff] at hempty
    rcases hpops.nonempty with hne | hfin
    · exact hne hempty.1
    · exact hsent (hpops.fin hfin).1
  have hnoFin := h.open_noFin hsent
  constructor
  · rw [hpops.keepsID, h.streamID_eq]
  · apply consecutive_concat h.consecutive
    rw [hpops.offset, h.writeOffset, Nat.zero_add]
  · rw [hpops.writeOffset, h.writeOffset, hdata, length_append, StreamFrame.dataLen]
  · rw [hdata, append_assoc, hpops.data, h.data]
  · intro hopen g hg
    rcases mem_append.mp hg with hg | hg
    · exact hnoFin g hg
    · obtain rfl := mem_singleton.mp hg
      by_contra hfin
      have hsent' := (hpops.fin (by simpa using hfin)).2.2.1
      rw [hopen] at hsent'
      cases hsent'
  · intro hclosed
    have hfin : f.finBit = true := by
      by_contra hfin
      have hkeeps := hpops.noFin (by simpa using hfin)
      rw [hclosed, hsent] at hkeeps
      cases hkeeps
    obtain ⟨-, hfinished, -, hnone⟩ := hpops.fin hfin
    refine ⟨hpops.finishedWriting.trans hfinished, hnone, ?_⟩
    rwa [dropLast_concat]

end

/-- Every stream knows its frames, and there are none of other streams. -/
structure Tracked (streams : ℕ → Option Stream) (written : ℕ → List UInt8)
    (emitted : List StreamFrame) : Prop where
  unused : ∀ id, streams id = none → written id = [] ∧ framesOf emitted id = []
  used : ∀ id s, streams id = some s → Tracks id (written id) (framesOf emitted id) s

theorem tracked_new : Tracked (fun _ => none) (fun _ => []) [] := by
  constructor
  · intro id _
    exact ⟨rfl, rfl⟩
  · intro id s hs
    cases hs

theorem Tracked.segments {streams : ℕ → Option Stream}
    {written : ℕ → List UInt8} (h : Tracked streams written emitted) (id : ℕ) :
    Segments (written id) (framesOf emitted id) := by
  cases hs : streams id with
  | none =>
    obtain ⟨hwritten, hframes⟩ := h.unused id hs
    rw [hwritten, hframes]
    exact (tracks_new id).segments
  | some s => exact (h.used id s hs).segments

theorem Tracked.update {streams : ℕ → Option Stream} {written written' : ℕ → List UInt8}
    {emitted' : List StreamFrame} (h : Tracked streams written emitted) {id : ℕ} {s' : Stream}
    (hother : ∀ k, k ≠ id → written' k = written k ∧ framesOf emitted' k = framesOf emitted k)
    (hs : Tracks id (written' id) (framesOf emitted' id) s') :
    Tracked (update streams id (some s')) written' emitted' := by
  constructor
  · intro k hk
    by_cases hkid : k = id
    · simp [hkid] at hk
    · rw [update_of_ne hkid] at hk
      rw [(hother k hkid).1, (hother k hkid).2]
      exact h.unused k hk
  · intro k s hk
    by_cases hkid : k = id
    · rw [hkid, update_self] at hk
      cases hk
      rwa [hkid]
    · rw [update_of_ne hkid] at hk
      rw [(hother k hkid).1, (hother k hkid).2]
      exact h.used k s hk

theorem framesOf_concat (emitted : List StreamFrame) (f : StreamFrame) (id : ℕ) :
    framesOf (emitted ++ [f]) id =
      if f.streamID = id then framesOf emitted id ++ [f]
      else framesOf emitted id := by
  unfold framesOf
  split_ifs with hid <;> simp [hid]

theorem Visits.tracked {φ κ : Type} {fc : SendControl φ} {maxBytes currentLen : ℕ}
    {st st' : Streams φ κ} (h : Visits fc maxBytes currentLen st frames st')
    {written : ℕ → List UInt8} (htracked : Tracked st.streams written emitted) :
    Tracked st'.streams written (emitted ++ frames) := by
  induction h generalizing emitted with
  | done => rwa [append_nil]
  | @pop _ id st st' s s' f frames k hs hle hpops rest ih =>
    have hid : f.streamID = id := by
      rw [hpops.streamID]
      exact (htracked.used id s hs).streamID_eq
    rw [append_cons]
    apply ih
    apply htracked.update
    · intro k hk
      rw [framesOf_concat, if_neg (by omega)]
      exact ⟨rfl, rfl⟩
    · rw [framesOf_concat, if_pos hid]
      exact (htracked.used id s hs).pops hpops

/-! ## Along a run -/

namespace Sender

variable {κ : Type}

/-- The memory is large enough for the data of the streams that a call visits. -/
def InMemory (sch : StreamScheduler κ) (s : Sender κ) : Event → Prop
  | .pop call maxBytes => call.InMemory sch s.streams maxBytes
  | _ => True

instance (sch : StreamScheduler κ) (s : Sender κ) : ∀ e, Decidable (s.InMemory sch e)
  | .pop _ _ => inferInstanceAs (Decidable (_ ∧ (_ ∨ _)))
  | .openStream _ _ | .write _ _ | .close _ | .updateWindow _ _ | .negotiate _ => isTrue trivial

/-- The frames that a call returns are allowed in the state before it. -/
def FramesAllowed (sch : StreamScheduler κ) (s : Sender κ) : Event → Prop
  | .pop call maxBytes => Allowed maxBytes 0 s.streams.flow
      (call.run Manager.sendControl sch s.streams maxBytes).1
  | _ => True

theorem framesAllowed (sch : StreamScheduler κ) (s : Sender κ) (e : Event)
    (hmem : s.InMemory sch e) : s.FramesAllowed sch e := by
  cases e with
  | pop call maxBytes =>
    exact (call.visits sch hmem).allowed
  | openStream streamID contributesToConnection | write streamID p | close streamID
  | updateWindow | negotiate => trivial

theorem tracked_write {s : Sender κ} (h : Tracked s.streams.streams s.written s.emitted)
    (p : List UInt8) :
    Tracked (s.write streamID p).streams.streams (s.write streamID p).written
      (s.write streamID p).emitted := by
  unfold write
  cases hs : s.streams.streams streamID with
  | none => exact h
  | some str =>
    dsimp only
    split_ifs with hbusy hrefused
    · exact h
    · exact h
    · have htracks := h.used streamID str hs
      have hnone : str.dataForWriting = none := by simpa using hbusy
      have hwrite : str.write p = { str with dataForWriting := some p } ∧
          str.finishedWriting = false := by
        unfold Stream.write at hrefused ⊢
        split_ifs at hrefused ⊢ with hclosed
        · exact absurd hnone hrefused
        · exact ⟨rfl, by simp_all⟩
      apply h.update
      · intro k hk
        exact ⟨update_of_ne hk _ _, rfl⟩
      · rw [hwrite.1]
        dsimp only [setStream]
        rw [update_self]
        exact htracks.write hnone hwrite.2 p

theorem tracked_step (sch : StreamScheduler κ) (s : Sender κ) (e : Event)
    (h : Tracked s.streams.streams s.written s.emitted) (hmem : s.InMemory sch e) :
    Tracked (s.step sch e).streams.streams (s.step sch e).written (s.step sch e).emitted := by
  cases e with
  | openStream streamID contributesToConnection =>
    dsimp only [step]
    cases hs : s.streams.streams streamID with
    | some => exact h
    | none =>
      obtain ⟨hwritten, hframes⟩ := h.unused streamID hs
      apply h.update (fun _ _ => ⟨rfl, rfl⟩)
      rw [hwritten, hframes]
      exact tracks_new streamID
  | write streamID p => exact tracked_write h p
  | close streamID =>
    dsimp only [step]
    cases hs : s.streams.streams streamID with
    | none => exact h
    | some str =>
      have htracks := h.used streamID str hs
      apply h.update (fun _ _ => ⟨rfl, rfl⟩)
      exact ⟨htracks.streamID_eq, htracks.consecutive, htracks.writeOffset,
        htracks.data, htracks.open_noFin,
        fun hsent => ⟨rfl, (htracks.closed hsent).2⟩⟩
  | updateWindow | negotiate => exact h
  | pop call maxBytes =>
    exact (call.visits sch hmem).tracked h

/-- In every run, each new frame keeps to the length and to the windows that are left
when it is popped, and the frames of each stream cut the written data into consecutive
slices with the FIN at the end. -/
theorem run_segments (sch : StreamScheduler κ) (p : ConnectionParameters) (scheduler : κ)
    (es : List Event) (hmem : AllSteps (step sch) (InMemory sch) (new p scheduler) es) :
    AllSteps (step sch) (FramesAllowed sch) (new p scheduler) es ∧
      ∀ streamID, Segments ((run (step sch) (new p scheduler) es).written streamID)
        (framesOf (run (step sch) (new p scheduler) es).emitted streamID) := by
  constructor
  · exact hmem.mono (framesAllowed sch)
  · intro streamID
    have htracked := run_invariant (I := fun s : Sender κ =>
        Tracked s.streams.streams s.written s.emitted)
      (tracked_step sch) tracked_new hmem
    exact htracked.segments streamID

/-- Two streams are written to; the window of the connection lets only three bytes
pass at first. -/
def twoStreams : List Event :=
  [.openStream 5 true, .openStream 7 true, .write 5 [1, 2, 3, 4], .close 5,
    .write 7 [5, 6], .pop .maybePopNormalFrames 1000, .updateWindow 0 100,
    .pop .maybePopNormalFrames maxByteCount]

def visitTwo : StreamScheduler Unit :=
  { StreamScheduler.single 5 with
    usesSend := false
    iterate := fun _ _ => [5, 7] }

/-- Stream 5 is emitted in two frames, the second of them with the FIN. -/
theorem run_segments_twoStreams :
    let p : ConnectionParameters := ⟨10, 3, 0, 0, 0, 0⟩
    let s := run (step visitTwo) (new p ()) twoStreams
    AllSteps (step visitTwo) (FramesAllowed visitTwo) (new p ()) twoStreams ∧
      (framesOf s.emitted 5).map (fun f => (f.offset, f.data, f.finBit)) =
        [(0, [1, 2, 3], false), (3, [4], true)] ∧
      Segments [1, 2, 3, 4] (framesOf s.emitted 5) := by
  intro p s
  have hmem : AllSteps (step visitTwo) (InMemory visitTwo) (new p ()) twoStreams := by
    decide +kernel
  have hrun := run_segments visitTwo p () twoStreams hmem
  have hwritten : s.written 5 = [1, 2, 3, 4] := by decide +kernel
  exact ⟨hrun.1, by decide +kernel, hwritten ▸ hrun.2 5⟩

end Sender

end Pstream.Packer
