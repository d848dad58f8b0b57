import Pstream.Packer.Emission
import Pstream.Stream.EndOfStream

/-!
# From the sender to the reader

The frames that a sender cuts from the data written to a stream go through the
retransmission queue, where they may be split, and arrive in any order, some of them more
than once and some of them never.  What the reader of the stream returns is what was
written, from its beginning and without a gap.
-/

namespace Pstream.Packer

open List Support Wire FlowControl Pstream.Stream Sender

variable {written : List UInt8} {frames before after : List StreamFrame} {f : StreamFrame}

theorem Consecutive.offset_eq {offset : ℕ} (h : Consecutive offset (before ++ f :: after)) :
    f.offset = offset + (dataOf before).length := by
  induction before generalizing offset with
  | nil => exact h.1
  | cons g before ih =>
    rw [ih h.2, endOffset, h.1, StreamFrame.dataLen, Nat.add_assoc]
    simp [dataOf]

/-- The frames of a sender are slices of what was written, and FIN is at its end. -/
theorem Segments.honest (h : Segments written frames) (hf : f ∈ frames) : Honest written f := by
  obtain ⟨before, after, rfl⟩ := append_of_mem hf
  have hoffset := h.consecutive.offset_eq
  have hdata : dataOf (before ++ f :: after) = dataOf before ++ (f.data ++ dataOf after) := by
    simp [dataOf]
  obtain ⟨rest, hrest⟩ := h.data
  rw [Nat.zero_add] at hoffset
  constructor
  · rw [IsSliceOf, hoffset, ← hrest, hdata, append_assoc, append_assoc]
    exact ⟨by simp, by simp⟩
  · intro hfin
    obtain rfl : after = [] := by
      by_contra hafter
      have hmem : f ∈ (before ++ f :: after).dropLast := by
        rw [dropLast_append_of_ne_nil (cons_ne_nil f after), dropLast_cons_of_ne_nil hafter]
        simp
      simp [h.fin_last f hmem] at hfin
    rw [← h.fin_all f hf hfin, hdata, endOffset, hoffset]
    simp [dataOf, StreamFrame.dataLen]

/-- In every run of a sender, and every run of a reader to which only frames of one stream
of the sender arrive, whole or split: the bytes that the reader has returned are the first
ones that were written to the stream, and all of them once it has reported the end. -/
theorem run_delivers {κ φ : Type} (sch : StreamScheduler κ) (p : ConnectionParameters)
    (scheduler : κ) (es : List Sender.Event)
    (hmem : AllSteps (step sch) (Sender.InMemory sch) (.new p scheduler) es)
    (fc : FlowControlManager φ) (flow : φ) (streamID : ℕ) (events : List Reader.Event)
    (hpeer : ∀ e ∈ events, Reader.FromPeer
      (framesOf (run (step sch) (.new p scheduler) es).emitted streamID) e)
    (hkept : AllSteps (Reader.step fc) (Reader.KeepsTail fc) (.new streamID flow) events) :
    let written := (run (step sch) (.new p scheduler) es).written streamID
    let r := run (Reader.step fc) (.new streamID flow) events
    (r.phase ≠ .panicked → returned r.results <+: written) ∧ EOFAtEnd written r.results := by
  intro written r
  have hsegments := (run_invariant (I := fun s : Sender κ =>
      Tracked s.streams.streams s.written s.emitted)
    (tracked_step sch) tracked_new hmem).segments streamID
  have hdelivers : Reader.Delivers written r := run_invariant
    (fun _ _ h he => h.step fc (fun f hf => (he.1 f hf).honest fun _ => hsegments.honest) he.2)
    (Reader.delivers_new streamID flow) ((allSteps_of_forall hpeer).and hkept)
  refine ⟨fun hphase => ?_, hdelivers.eof⟩
  have hbytes := prefix_append (returned r.results) r.phase.buf
  rw [hdelivers.bytes hphase] at hbytes
  exact hbytes.trans <| take_prefix _ written

/-- The frames of a stream arrive in the wrong order, and the first one twice. -/
theorem run_delivers_reordered :
    let s := run (step visitTwo) (.new ⟨10, 3, 0, 0, 0, 0⟩ ()) twoStreams
    let events : List Reader.Event := [.addStreamFrame ⟨5, true, true, 3, [4]⟩,
      .addStreamFrame ⟨5, false, true, 0, [1, 2, 3]⟩, .read 9, .advance 1, .advance 2, .advance 3,
      .addStreamFrame ⟨5, false, true, 0, [1, 2, 3]⟩, .advance 4, .advance 5, .advance 6]
    let r := run (Reader.step .unlimited) (.new 5 ()) events
    r.results = [⟨s.written 5, some .eof⟩] ∧ EOFAtEnd (s.written 5) r.results := by
  intro s events r
  refine ⟨by decide +kernel, (run_delivers visitTwo _ () twoStreams
    (by decide +kernel) .unlimited () 5 events ?_ ?_).2⟩
  · intro e he f hf
    subst hf
    simp only [events, mem_cons, Reader.Event.addStreamFrame.injEq, reduceCtorEq,
      not_mem_nil, or_false, false_or] at he
    rcases he with rfl | rfl | rfl <;> exact .sent (by decide +kernel)
  · refine ⟨?_, by simp [Reader.KeepsTail]⟩
    rintro f hf - - -
    cases hf
    exact .inl ⟨⟨0, maxByteCount⟩, .head _, by decide⟩

end Pstream.Packer
