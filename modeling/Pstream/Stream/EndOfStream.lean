import Pstream.Stream.Read
import Pstream.Stream.Reassembly

/-!
# End of stream

`Read` reports the end of the stream after a frame with FIN.  For frames cut by
a sender from one byte string, in any order and with any duplicates, the end is
reported at the right place as long as no arriving frame with FIN loses its tail
in the sorter; the sorter cuts the tail of a frame without clearing its FIN bit.
-/

namespace Pstream.Stream

open List Function Support Wire StreamFrameSorter

/-! ## The end mark in the frame queue -/

/-- The queue of `s` holds honest frames only. -/
structure HoldsHonest (data : List UInt8) (s : StreamFrameSorter) : Prop where
  separated : Separated s.gaps
  queued_offset : ∀ k f, s.queuedFrames k = some f → f.offset = k
  queued_honest : ∀ k f, s.queuedFrames k = some f → Honest data f
  queued_received : ∀ k f, s.queuedFrames k = some f → ∀ x ∈ frameOffsets f, ¬Covers s.gaps x

/-- Pushing the frame does not cut its tail: its last byte is missing, or none
of its bytes is.  In the second case a gap that ends where the frame starts must
have a frame queued behind it. -/
def TailKept (s : StreamFrameSorter) (frame : StreamFrame) : Prop :=
  Covers s.gaps (endOffset frame - 1) ∨ (∀ x ∈ frameOffsets frame, ¬Covers s.gaps x) ∧
      ((∃ old, s.queuedFrames frame.offset = some old ∧ 0 < old.dataLen) ∨
        ∀ g ∈ s.gaps, g.stop ≠ frame.offset)

namespace HoldsHonest

variable {data : List UInt8} {s : StreamFrameSorter} {frame : StreamFrame}

theorem new (data : List UInt8) : HoldsHonest data .newStreamFrameSorter where
  separated := (reassembles_new data).separated
  queued_offset := by simp [newStreamFrameSorter]
  queued_honest := by simp [newStreamFrameSorter]
  queued_received := by simp [newStreamFrameSorter]

theorem covers_of_sublist {l m : List ByteInterval} (h : l.Sublist m) {x : ℕ}
    (hx : Covers l x) : Covers m x := by
  obtain ⟨i, hi, hix⟩ := hx
  exact ⟨i, h.subset hi, hix⟩

theorem of_subqueue (h : HoldsHonest data s) {s' : StreamFrameSorter} (hsep : Separated s'.gaps)
    (hqueue : ∀ k f, s'.queuedFrames k = some f → s.queuedFrames k = some f)
    (hgaps : ∀ x, Covers s'.gaps x → Covers s.gaps x) :
    HoldsHonest data s' where
  separated := hsep
  queued_offset k f hf := h.queued_offset k f (hqueue k f hf)
  queued_honest k f hf := h.queued_honest k f (hqueue k f hf)
  queued_received k f hf x hx hcov := h.queued_received k f (hqueue k f hf) x hx (hgaps x hcov)

theorem filled (h : HoldsHonest data s) (hlen : 0 < frame.dataLen)
    (p : StreamFrameSorter.Filling s frame) : HoldsHonest data p.filled := by
  refine h.of_subqueue (separated_subtract (p.start_lt_endOffset hlen) h.separated) ?_ ?_
  · intro k f hf
    rcases p.deleted k with hq | ⟨hq, -⟩
    · exact hq ▸ hf
    · simp [StreamFrameSorter.Filling.filled, hq] at hf
  · intro x hx
    exact ((covers_subtract _ _).mp hx).1

theorem queuedPiece (h : HoldsHonest data s) (hf : Honest data frame)
    (hlen : 0 < frame.dataLen) (p : StreamFrameSorter.Filling s frame)
    (hstop : frame.finBit = true → p.stop = endOffset frame) :
    HoldsHonest data p.queuedPiece := by
  have hfilled := h.filled hlen p
  have hcases : ∀ k f, p.queuedPiece.queuedFrames k = some f →
      k = p.start ∧ f = p.piece ∨ p.filled.queuedFrames k = some f := by
    intro k f hkf
    by_cases hk : k = p.start
    · subst hk
      simp only [StreamFrameSorter.Filling.queuedPiece, update_self,
        Option.some.injEq] at hkf
      exact .inl ⟨rfl, hkf.symm⟩
    · simp only [StreamFrameSorter.Filling.queuedPiece, update_of_ne hk] at hkf
      exact .inr hkf
  have hend := p.endOffset_piece h.separated
  refine ⟨hfilled.separated, ?_, ?_, ?_⟩
  · intro k f hkf
    rcases hcases k f hkf with ⟨rfl, rfl⟩ | hkf
    · exact p.piece_offset
    · exact hfilled.queued_offset k f hkf
  · intro k f hkf
    rcases hcases k f hkf with ⟨rfl, rfl⟩ | hkf
    · refine ⟨p.isSliceOf_piece hf.slice hlen, fun hfin => ?_⟩
      rw [hend, hstop hfin, hf.fin hfin]
    · exact hfilled.queued_honest k f hkf
  · intro k f hkf
    rcases hcases k f hkf with ⟨rfl, rfl⟩ | hkf
    · rintro x ⟨hx₁, hx₂⟩ hcov
      rw [p.piece_offset] at hx₁
      have hx := ((covers_subtract _ _).mp hcov).2
      have hle := p.stop_le_endOffset
      omega
    · exact hfilled.queued_received k f hkf

theorem insert (h : HoldsHonest data s) (hf : Honest data frame) (hlen : 0 < frame.dataLen)
    (hstop : frame.finBit = true →
      ∀ p : StreamFrameSorter.Filling s frame, p.stop = endOffset frame) :
    HoldsHonest data (s.insert frame).1 := by
  have hres := s.insert_result h.separated hlen
  generalize s.insert frame = r at hres
  cases hres with
  | duplicate | noGapFound => exact h
  | noEndGapFound gaps queued hsub hqueue _ =>
    refine h.of_subqueue ⟨?_, ?_⟩ hqueue fun x => covers_of_sublist hsub
    · exact fun i hi => h.separated.nonempty i (hsub.subset hi)
    · exact h.separated.ordered.sublist hsub
  | tooManyGaps p => exact h.filled hlen p
  | queued p => exact h.queuedPiece hf hlen p fun hfin => hstop hfin p

/-- A frame whose last byte is missing is not cut at its end. -/
theorem stop_eq_of_covers (p : StreamFrameSorter.Filling s frame)
    (hcov : Covers s.gaps (endOffset frame - 1)) : p.stop = endOffset frame := by
  refine min_eq_left ?_
  by_contra hlt
  exact p.lastReached.uncovered _ (by omega) (by omega) hcov

variable (h : HoldsHonest data s)

include h

/-- A frame without missing bytes fills nothing, unless a gap ends where it
starts. -/
theorem not_filling_of_received (hlen : 0 < frame.dataLen)
    (hrec : ∀ x ∈ frameOffsets frame, ¬Covers s.gaps x) (hne : ∀ g ∈ s.gaps, g.stop ≠ frame.offset)
    (p : StreamFrameSorter.Filling s frame) : False := by
  have hgap := h.separated.nonempty _ p.gap_mem
  have hstop := hne _ p.gap_mem
  have hoff := p.offset_le
  refine hrec p.start ⟨p.offset_le_start, p.start_lt_endOffset hlen⟩
    ⟨p.gap, p.gap_mem, le_max_right _ _, ?_⟩
  unfold StreamFrameSorter.Filling.start
  omega

theorem gap_stop_ne {k : ℕ} {old : StreamFrame} (hq : s.queuedFrames k = some old)
    (hpos : 0 < old.dataLen) : ∀ g ∈ s.gaps, g.stop ≠ k + old.dataLen := by
  intro g hg hstop
  have hgap := h.separated.nonempty g hg
  have hoff := h.queued_offset k old hq
  refine h.queued_received k old hq (g.stop - 1) ⟨by omega, ?_⟩ ⟨g, hg, by omega, by omega⟩
  unfold endOffset
  omega

theorem push (hf : Honest data frame)
    (hkept : frame.finBit = true → 0 < frame.dataLen → TailKept s frame) :
    HoldsHonest data (s.push frame).1 := by
  unfold StreamFrameSorter.push
  split_ifs with hlen hfin
  · -- an empty frame with FIN is queued as it is
    have hcases : ∀ k f, update s.queuedFrames frame.offset (some frame) k = some f →
          k = frame.offset ∧ f = frame ∨ s.queuedFrames k = some f := by
      intro k f hkf
      by_cases hk : k = frame.offset
      · subst hk
        simp only [update_self, Option.some.injEq] at hkf
        exact .inl ⟨rfl, hkf.symm⟩
      · exact .inr (by simpa [update_of_ne hk] using hkf)
    refine ⟨h.separated, ?_, ?_, ?_⟩
    · intro k f hkf
      rcases hcases k f hkf with ⟨rfl, rfl⟩ | hkf
      · rfl
      · exact h.queued_offset k f hkf
    · intro k f hkf
      rcases hcases k f hkf with ⟨rfl, rfl⟩ | hkf
      · exact hf
      · exact h.queued_honest k f hkf
    · intro k f hkf
      rcases hcases k f hkf with ⟨rfl, rfl⟩ | hkf
      · rintro x ⟨hx₁, hx₂⟩
        unfold endOffset at hx₂
        omega
      · exact h.queued_received k f hkf
  · exact h
  · have hpos : 0 < frame.dataLen := Nat.pos_of_ne_zero hlen
    cases hold : s.queuedFrames frame.offset with
    | none =>
      refine h.insert hf hpos fun hfin p => ?_
      rcases hkept hfin hpos with hcov | ⟨hrec, ⟨old, hq, -⟩ | hne⟩
      · exact stop_eq_of_covers p hcov
      · simp [hold] at hq
      · exact (h.not_filling_of_received hpos hrec hne p).elim
    | some oldFrame =>
      dsimp only
      split_ifs with hcovered
      · exact h
      · have hcut : oldFrame.dataLen ≤ frame.dataLen := by omega
        have hend := endOffset_dropFront hcut
        have hpos' : 0 < (dropFront oldFrame.dataLen frame).dataLen := by
          rw [dropFront_dataLen]
          omega
        refine h.insert ⟨hf.slice.dropFront hcut, ?_⟩ hpos' fun hfin p => ?_
        · rw [hend]
          exact hf.fin
        · rcases hkept hfin hpos with hcov | ⟨hrec, hq⟩
          · exact stop_eq_of_covers p (hend ▸ hcov)
          · refine (h.not_filling_of_received hpos' ?_ ?_ p).elim
            · rintro x ⟨hx₁, hx₂⟩
              exact hrec x ⟨(Nat.le_add_right _ _).trans hx₁, hend ▸ hx₂⟩
            · rcases Nat.eq_zero_or_pos oldFrame.dataLen with hzero | hne
              · rcases hq with ⟨old, hq, hne⟩ | hq
                · obtain rfl := Option.some.inj (hold.symm.trans hq)
                  exact h.gap_stop_ne hold hne
                · simpa [hzero] using hq
              · exact h.gap_stop_ne hold hne

theorem pop : HoldsHonest data s.pop.1 := by
  unfold StreamFrameSorter.pop
  cases s.head with
  | none => exact h
  | some f =>
    refine h.of_subqueue h.separated ?_ fun _ hx => hx
    intro k g hg
    by_cases hk : k = f.offset
    · simp [hk] at hg
    · simpa [update_of_ne hk] using hg

end HoldsHonest

/-! ## What the reader has returned -/

/-- The bytes returned by finished calls. -/
def returned (results : List ReadResult) : List UInt8 := results.flatMap (·.data)

@[simp] theorem returned_append (results : List ReadResult) (x : ReadResult) :
    returned (results ++ [x]) = returned results ++ x.data := by
  simp [returned]

/-- Whenever a call reported the end of the stream, the calls up to it had
returned exactly `data`. -/
def EOFAtEnd (data : List UInt8) (results : List ReadResult) : Prop :=
  ∀ before x after, results = before ++ x :: after → x.err = some .eof →
    returned (before ++ [x]) = data

theorem EOFAtEnd.append {data : List UInt8} {results : List ReadResult} (h : EOFAtEnd data results)
    {x : ReadResult} (hx : x.err = some .eof → returned (results ++ [x]) = data) :
    EOFAtEnd data (results ++ [x]) := by
  intro before y after heq hy
  rcases eq_nil_or_concat after with rfl | ⟨after', z, rfl⟩
  · obtain ⟨rfl, hxy⟩ := append_inj' heq rfl
    obtain rfl : x = y := by simpa using hxy
    exact hx hy
  · rw [concat_eq_append, ← cons_append, ← append_assoc] at heq
    obtain ⟨rfl, -⟩ := append_inj' heq rfl
    exact h before y after' rfl hy

/-- The bytes that the call in progress has copied. -/
def ReadPhase.buf : ReadPhase → List UInt8
  | .idle | .panicked => []
  | .loopTest _ buf | .waiting _ buf _ => buf
  | .copying _ buf _ | .popping _ buf _ => buf

namespace Reader

variable {φ : Type*} {data : List UInt8} {r : Reader φ}

/-- The reader has returned, or copied into the slice of the call in progress,
the bytes in front of its read offset. -/
structure Delivers (data : List UInt8) (r : Reader φ) : Prop where
  queue : HoldsHonest data r.stream.frameQueue
  not_cancelled : r.stream.cancelled = false
  not_reset : r.stream.resetLocally = false
  no_err : r.stream.err = none
  bytes : r.phase ≠ .panicked → returned r.results ++ r.phase.buf = data.take r.stream.readOffset
  copying : ∀ len buf f, r.phase = .copying len buf f → Honest data f ∧
      r.stream.readPosInFrame = (r.stream.readOffset : ℤ) - f.offset
  popping : ∀ len buf f, r.phase = .popping len buf f → f.finBit = true →
    data.length ≤ r.stream.readOffset
  finished : r.stream.finishedReading = true → r.phase = .idle ∧ data.length ≤ r.stream.readOffset
  eof : EOFAtEnd data r.results

theorem delivers_new (streamID : ℕ) (flow : φ) :
    Delivers data (new streamID flow) where
  queue := HoldsHonest.new data
  not_cancelled := rfl
  not_reset := rfl
  no_err := rfl
  bytes _ := by simp [new, returned, ReadPhase.buf, Stream.newStream]
  copying := by simp [new]
  popping := by simp [new]
  finished := by simp [new, Stream.newStream]
  eof := by
    intro before x after heq
    simp [new] at heq

namespace Delivers

variable {buf : List UInt8} {len : ℕ} {f : StreamFrame}

theorem ret (h : Delivers data r) {err : Option StreamError} (hphase : r.phase ≠ .panicked)
    (hbuf : r.phase.buf = buf) (herr : err = some .eof → data.length ≤ r.stream.readOffset) :
    Delivers data (r.ret buf err) where
  queue := h.queue
  not_cancelled := h.not_cancelled
  not_reset := h.not_reset
  no_err := h.no_err
  bytes _ := by
    have hbytes := h.bytes hphase
    rw [hbuf] at hbytes
    simpa [Reader.ret, ReadPhase.buf] using hbytes
  copying := by simp [Reader.ret]
  popping := by simp [Reader.ret]
  finished hfin := ⟨rfl, (h.finished hfin).2⟩
  eof := by
    refine h.eof.append fun heof => ?_
    have hbytes := h.bytes hphase
    rw [hbuf] at hbytes
    rw [returned_append, hbytes, take_of_length_le (herr heof)]

/-- The invariant does not depend on the reader's signal, its deadline or the
flow control state. -/
theorem withQueue (h : Delivers data r) {queue : StreamFrameSorter}
    (hqueue : HoldsHonest data queue) (readChan : Bool) (deadline : ℤ) (flow : φ) :
    Delivers data
      { r with
        stream := { r.stream with
          frameQueue := queue
          readChan := readChan
          readDeadline := deadline }
        flow := flow } :=
  ⟨hqueue, h.not_cancelled, h.not_reset, h.no_err, h.bytes, h.copying, h.popping, h.finished, h.eof⟩

theorem move (h : Delivers data r) {phase : ReadPhase} (hphase : r.phase ≠ .panicked)
    (hbuf : r.phase.buf = phase.buf) (hidle : r.phase ≠ .idle ∨ r.stream.finishedReading = false)
    (hcopying : ∀ len buf f, phase ≠ .copying len buf f)
    (hpopping : ∀ len buf f, phase ≠ .popping len buf f) :
    Delivers data { r with phase := phase } where
  queue := h.queue
  not_cancelled := h.not_cancelled
  not_reset := h.not_reset
  no_err := h.no_err
  bytes _ := hbuf ▸ h.bytes hphase
  copying len buf f hf := absurd hf (hcopying len buf f)
  popping len buf f hf := absurd hf (hpopping len buf f)
  finished hfin := by
    rcases hidle with hidle | hidle
    · exact absurd (h.finished hfin).1 hidle
    · simp [hidle] at hfin
  eof := h.eof

theorem read (h : Delivers data r) (len : ℕ) : Delivers data (r.read len) := by
  unfold Reader.read
  cases hphase : r.phase with
  | idle =>
    have hne : r.phase ≠ .panicked := by simp [hphase]
    have hbuf : r.phase.buf = [] := by simp [hphase, ReadPhase.buf]
    have hlive : ¬(r.stream.cancelled || r.stream.resetLocally) = true := by
      simp [h.not_cancelled, h.not_reset]
    split_ifs with hfin
    · exact h.ret hne hbuf fun _ => (h.finished hfin).2
    · exact h.move hne hbuf (.inr (by simpa using hfin)) (by simp) (by simp)
  | loopTest | waiting | copying | popping | panicked => exact h

theorem waitingLoop (h : Delivers data r) (now : ℤ) (hphase : r.phase ≠ .panicked)
    (hidle : r.phase ≠ .idle) (hbuf : r.phase.buf = buf) :
    Delivers data (r.waitingLoop now len buf r.stream.frameQueue.head) := by
  have hlive : ¬(r.stream.resetLocally || r.stream.cancelled) = true := by
    simp [h.not_cancelled, h.not_reset]
  unfold Reader.waitingLoop
  split_ifs with hdeadline
  · exact h.ret hphase hbuf (by simp)
  · cases hhead : r.stream.frameQueue.head with
    | none => exact h.move hphase hbuf (.inl hidle) (by simp) (by simp)
    | some f =>
      refine ⟨h.queue, h.not_cancelled, h.not_reset, h.no_err,
        fun _ => hbuf ▸ h.bytes hphase, ?_, by simp,
        fun hfin => absurd (h.finished hfin).1 hidle, h.eof⟩
      rintro len' buf' f' heq
      cases heq
      exact ⟨h.queue.queued_honest _ _ hhead, rfl⟩

/-- The bytes copied from an honest frame at the read offset are the next ones
of the data. -/
theorem take_append_chunk (hf : Honest data f) (readOffset pos room : ℕ)
    (hoff : readOffset = f.offset + pos) (hpos : pos ≤ f.dataLen) :
    data.take readOffset ++ chunk f pos room =
      data.take (readOffset + (chunk f pos room).length) := by
  subst hoff
  exact ((hf.slice.drop hpos).take _).take_append

variable (h : Delivers data r)

include h

theorem copyFrame (fc : FlowControlManager φ) (hphase : r.phase = .copying len buf f) :
    Delivers data (r.copyFrame fc len buf f) := by
  obtain ⟨hne, hidle, hbuf⟩ : r.phase ≠ .panicked ∧ r.phase ≠ .idle ∧ r.phase.buf = buf := by
    simp [hphase, ReadPhase.buf]
  obtain ⟨hf, hpos⟩ := h.copying len buf f hphase
  unfold Reader.copyFrame
  split
  · exact h.ret hne hbuf (by simp)
  by_cases hbug : (f.dataLen : ℤ) < r.stream.readPosInFrame
  · rw [if_pos hbug]
    exact h.ret hne hbuf (by simp)
  rw [if_neg hbug]
  by_cases hneg : r.stream.readPosInFrame < 0
  · rw [if_pos hneg]
    exact ⟨h.queue, h.not_cancelled, h.not_reset, h.no_err, by simp, by simp,
      by simp, fun hfin => absurd (h.finished hfin).1 hidle, h.eof⟩
  rw [if_neg hneg]
  have hbytes := h.bytes hne
  rw [hbuf] at hbytes
  have hchunk := take_append_chunk hf r.stream.readOffset
    r.stream.readPosInFrame.toNat (len - buf.length) (by omega) (by omega)
  refine ⟨h.queue, h.not_cancelled, h.not_reset, h.no_err, fun _ => ?_, ?_, ?_,
    fun hfin => absurd (h.finished hfin).1 hidle, h.eof⟩
  · dsimp only
    rw [← hchunk, ← hbytes, append_assoc]
    split_ifs <;> rfl
  · intro len' buf' f' heq
    dsimp only at heq
    split_ifs at heq
  · intro len' buf' f' heq hfin
    dsimp only at heq ⊢
    split_ifs at heq with hend
    cases heq
    have hlast := hf.fin hfin
    unfold endOffset at hlast
    omega

theorem popFrame (hphase : r.phase = .popping len buf f) :
    Delivers data (r.popFrame len buf f) := by
  obtain ⟨hne, hidle, hbuf⟩ : r.phase ≠ .panicked ∧ r.phase ≠ .idle ∧ r.phase.buf = buf := by
    simp [hphase, ReadPhase.buf]
  have hpop : Delivers data { r with
      stream := { r.stream with frameQueue := r.stream.frameQueue.pop.1 } } :=
    h.withQueue h.queue.pop _ _ _
  unfold Reader.popFrame
  split_ifs with hfin
  · have hend := h.popping len buf f hphase hfin
    have hret : Delivers data (Reader.ret _ buf (some .eof)) := hpop.ret hne hbuf fun _ => hend
    exact ⟨hret.queue, hret.not_cancelled, hret.not_reset, hret.no_err,
      hret.bytes, hret.copying, hret.popping, fun _ => ⟨rfl, hend⟩, hret.eof⟩
  · exact hpop.move hne hbuf (.inl hidle) (by simp) (by simp)

variable (fc : FlowControlManager φ)

include fc

theorem advance (now : ℤ) : Delivers data (r.advance fc now) := by
  unfold Reader.advance
  cases hphase : r.phase with
  | idle | panicked => exact h
  | loopTest len buf =>
    obtain ⟨hne, hidle, hbuf⟩ : r.phase ≠ .panicked ∧ r.phase ≠ .idle ∧ r.phase.buf = buf := by
      simp [hphase, ReadPhase.buf]
    dsimp only
    split_ifs
    · exact h.ret hne hbuf (by simp)
    · exact h.ret hne hbuf (by simp [h.no_err])
    · exact h.waitingLoop now hne hidle hbuf
  | waiting len buf deadline =>
    obtain ⟨hne, hidle, hbuf⟩ : r.phase ≠ .panicked ∧ r.phase ≠ .idle ∧ r.phase.buf = buf := by
      simp [hphase, ReadPhase.buf]
    dsimp only
    split_ifs
    · have hread : Delivers data
          { r with stream := { r.stream with readChan := false } } :=
        h.withQueue h.queue _ _ _
      exact hread.waitingLoop now hne hidle hbuf
    · exact h.waitingLoop now hne hidle hbuf
    · exact h
  | copying => exact h.copyFrame fc hphase
  | popping => exact h.popFrame hphase

theorem addStreamFrame (hf : Honest data f)
    (hkept : (fc.updateHighestReceived r.flow r.stream.streamID (endOffset f)).2 = none →
      f.finBit = true → 0 < f.dataLen → TailKept r.stream.frameQueue f) :
    Delivers data (r.step fc (.addStreamFrame f)) := by
  have hstep : r.step fc (.addStreamFrame f) =
      { r with
        stream := (r.stream.addStreamFrame fc r.flow f).2.1
        flow := (r.stream.addStreamFrame fc r.flow f).1 } := rfl
  rw [hstep]
  rcases r.stream.addStreamFrame_stream fc r.flow f with
    ⟨-, hsame⟩ | ⟨hflow, readChan, hpush⟩
  · rw [hsame]
    exact h.withQueue h.queue _ _ _
  · rw [hpush]
    exact h.withQueue (h.queue.push hf (hkept hflow)) _ _ _

theorem setReadDeadline (t : ℤ) : Delivers data (r.step fc (.setReadDeadline t)) := by
  unfold Reader.step Stream.setReadDeadline
  dsimp only
  split_ifs <;> exact h.withQueue h.queue _ _ _

end Delivers

/-- The events of a stream whose peer sends `frames`: only what the peer put on
the wire arrives. -/
def FromPeer (frames : List StreamFrame) (e : Event) : Prop :=
  ∀ f, e = .addStreamFrame f → OnWire frames f

/-- An arriving frame with FIN, data and room in the flow control windows does
not lose its tail. -/
def KeepsTail (fc : FlowControlManager φ) (r : Reader φ) (e : Event) : Prop :=
  ∀ f, e = .addStreamFrame f → (fc.updateHighestReceived r.flow r.stream.streamID (endOffset f)).2 =
      none →
    f.finBit = true → 0 < f.dataLen → TailKept r.stream.frameQueue f

theorem Delivers.step (h : Delivers data r) (fc : FlowControlManager φ) {e : Event}
    (hf : ∀ f, e = .addStreamFrame f → Honest data f) (hkept : KeepsTail fc r e) :
    Delivers data (r.step fc e) := by
  cases e with
  | addStreamFrame f => exact h.addStreamFrame fc (hf f rfl) (hkept f rfl)
  | setReadDeadline t => exact h.setReadDeadline fc t
  | read len => exact h.read len
  | advance now => exact h.advance fc now

theorem delivers_step {frames : List StreamFrame} (hcut : Cut data 0 frames)
    (fc : FlowControlManager φ) (r : Reader φ) (e : Event) (h : Delivers data r)
    (he : FromPeer frames e ∧ KeepsTail fc r e) : Delivers data (r.step fc e) :=
  h.step fc (fun f hf => (he.1 f hf).honest hcut.honest) he.2

/-- For every byte string, every way to cut it into frames, and every
interleaving of arriving frames with calls of `Read` in which no frame with FIN
loses its tail: a call that reports the end of the stream completes the byte
string. -/
theorem eof_at_end (fc : FlowControlManager φ) (flow : φ) (streamID : ℕ) (data : List UInt8)
    (frames : List StreamFrame)
    (hcut : Cut data 0 frames)
    (events : List Event)
    (hpeer : ∀ e ∈ events, FromPeer frames e)
    (hkept : AllSteps (step fc) (KeepsTail fc) (new streamID flow) events) :
    EOFAtEnd data (run (step fc) (new streamID flow) events).results := by
  have hboth := (allSteps_of_forall hpeer).and hkept
  exact (run_invariant (delivers_step hcut fc) (delivers_new streamID flow) hboth).eof

/-- The frames of a byte string arrive out of order, twice and split in two. -/
theorem eof_at_end_reordered :
    let frames : List StreamFrame := [⟨5, false, true, 0, [1, 2]⟩, ⟨5, true, true, 2, [3, 4]⟩]
    let events : List Event :=
      [.addStreamFrame ⟨5, true, true, 2, [3, 4]⟩, .addStreamFrame ⟨5, true, true, 2, [3, 4]⟩,
        .addStreamFrame ⟨5, false, true, 1, [2]⟩, .addStreamFrame ⟨5, false, true, 0, [1, 2]⟩,
        .read 8] ++ replicate 9 (.advance 1)
    let r := run (step .unlimited) (new 5 ()) events
    r.results = [⟨[1, 2, 3, 4], some .eof⟩] ∧ EOFAtEnd [1, 2, 3, 4] r.results ∧
      Cut [1, 2, 3, 4] 0 frames := by
  intro frames events
  have hcut : Cut [1, 2, 3, 4] 0 frames :=
    .cons ⟨5, false, true, 0, [1, 2]⟩ _ rfl ⟨by decide, [3, 4], rfl⟩
      (.last ⟨5, true, true, 2, [3, 4]⟩ rfl rfl (by decide))
  have hfirst : OnWire frames ⟨5, false, true, 0, [1, 2]⟩ := .sent (by simp [frames])
  refine ⟨by decide, eof_at_end .unlimited () 5 _ frames hcut events ?_ ⟨?_, ?_, ?_⟩, hcut⟩
  · intro e he f hf
    subst hf
    simp only [events, cons_append, nil_append, mem_cons, Event.addStreamFrame.injEq, reduceCtorEq,
      mem_replicate, and_false, or_false, or_self_left] at he
    rcases he with rfl | rfl | rfl
    · exact .sent (by simp [frames])
    · exact .remainder (n := 1) hfirst rfl
    · exact hfirst
  · rintro f ⟨⟩ - - -
    exact .inl ⟨⟨0, maxByteCount⟩, .head _, by decide⟩
  · rintro f ⟨⟩ - - -
    -- the bytes from 2 to 4 are not missing
    have hgaps : ∀ x ∈ frameOffsets ⟨5, true, true, 2, [3, 4]⟩,
        ¬Covers [⟨0, 2⟩, ⟨4, maxByteCount⟩] x := by
      simp [frameOffsets, endOffset, StreamFrame.dataLen, Interval.Contains]
      omega
    exact .inr ⟨hgaps, .inl ⟨⟨5, true, true, 2, [3, 4]⟩, rfl, by decide⟩⟩
  · refine AllSteps.mono (fun r e he f hf _ hfin => ?_)
      (allSteps_of_forall (P := fun e => ∀ f, e = .addStreamFrame f → f.finBit = false) ?_)
    · simp [he f hf] at hfin
    · simp

/-- The end is reported too early.  The two bytes are sent in one frame, which
is later split in two for retransmission.  The second half arrives first, then
the frame as it was sent: the sorter cuts it down to the first byte and keeps
its FIN bit. -/
theorem eof_before_end :
    let data : List UInt8 := [1, 2]
    let frames : List StreamFrame := [⟨5, true, true, 0, [1, 2]⟩]
    let events : List Event :=
      [.addStreamFrame ⟨5, true, true, 1, [2]⟩,
        .addStreamFrame ⟨5, true, true, 0, [1, 2]⟩, .read 4, .advance 1,
        .advance 2, .advance 3]
    let r := run (step .unlimited) (new 5 ()) events
    Cut data 0 frames ∧ (∀ e ∈ events, FromPeer frames e) ∧
      r.results = [⟨[1], some .eof⟩] ∧ ¬EOFAtEnd data r.results := by
  have hresults : (run (step .unlimited) (new 5 ()) [.addStreamFrame ⟨5, true, true, 1, [2]⟩,
        .addStreamFrame ⟨5, true, true, 0, [1, 2]⟩, .read 4, .advance 1,
        .advance 2, .advance 3]).results = [⟨[1], some .eof⟩] := by decide
  refine ⟨.last ⟨5, true, true, 0, [1, 2]⟩ rfl rfl (by decide), ?_, hresults, ?_⟩
  · intro e he f hf
    subst hf
    simp only [mem_cons, Event.addStreamFrame.injEq, reduceCtorEq,
      not_mem_nil, or_false] at he
    rcases he with rfl | rfl
    · exact .remainder (n := 1) (.sent (mem_singleton_self _)) rfl
    · exact .sent (mem_singleton_self _)
  · intro h
    have hbytes := h [] ⟨[1], some .eof⟩ [] hresults rfl
    simp [returned] at hbytes

end Reader

end Pstream.Stream
