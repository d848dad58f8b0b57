import Pstream.Session.HandleFrames

/-!
# Frames that make a session panic

A frame from the peer can name a path that does not exist.  `handleAckFrame` and
the loop over the paths of a PATHS frame look the path up and use it without a
check, and a server reads the address of every path of a PATHS frame, although
the parser accepts a frame without addresses.  This module says exactly which
frames make `handleFramesNew` dereference a missing path or index past the end of
a slice.
-/

namespace Pstream.Session

open List AckHandler Packer Pstream.Stream Support
open Wire

variable {κ φ ρ : Type}

/-- A missing path is dereferenced, or an index is out of range. -/
def Panic.BadAccess : Panic → Prop
  | .missingPath _ => True
  | .indexOutOfRange => True
  | .missingStream _ => False
  | .packer => False

instance : DecidablePred Panic.BadAccess := fun
  | .missingPath _ | .indexOutOfRange => isTrue trivial
  | .missingStream _ | .packer => isFalse id

/-- Every path whose RTT says that it may have failed exists. -/
def FailedPathsExist (s : Session κ φ ρ) (paths : List (PathID × ℤ)) : Prop :=
  ∀ p ∈ paths, failedRTT ≤ p.2 → s.paths p.1 ≠ none

/-- The frame names only paths that exist where the session relies on it, and a
server gets addresses with its paths. -/
def FrameSafe (s : Session κ φ ρ) : Frame → Prop
  | .ack f => s.paths f.pathID ≠ none
  | .paths f =>
    FailedPathsExist s (f.pathIDs.zip f.remoteRTTs) ∧
      (s.perspective = .server → f.numPaths = 0 ∨ 0 < f.numIPs)
  | _ => True

/-- Every frame that is handled is safe in the state it is handled in. -/
def FramesSafe (ops : Interfaces κ φ ρ) (pathID : PathID)
    (localAddr : UDPAddr) : Inputs → Session κ φ ρ → List Frame → Prop
  | _, _, [] => True
  | i, s, frame :: frames =>
    FrameSafe s frame ∧ ∀ err s', handleFrame ops i pathID localAddr frame s = .ok err s' →
        err.all SessionError.ignored = true →
        FramesSafe ops pathID localAddr i.next s' frames

/-- The computation does not panic in one of the ways in question. -/
abbrev Safe {α : Type} (x : SessionM κ φ ρ α) (s : Session κ φ ρ) : Prop :=
  Avoids Panic.BadAccess x s

variable {s : Session κ φ ρ} {pathID : PathID} {ops : Interfaces κ φ ρ}
  {i : Inputs} {f : PathsFrame} {localAddr : UDPAddr}

theorem safe_path_iff : Safe (path pathID) s ↔ s.paths pathID ≠ none := by
  unfold Safe Avoids
  cases h : s.paths pathID with
  | none => simp [path_of_none h, Panic.BadAccess]
  | some => simp [path_of_some h]

/-! ## Frames that are always safe -/

theorem safe_handleStreamFrame (f : StreamFrame) : Safe (handleStreamFrame ops f) s := by
  simp [handleStreamFrame, avoids_bind]

theorem safe_handleWindowUpdateFrame (f : WindowUpdateFrame) :
    Safe (handleWindowUpdateFrame ops f) s := by
  simp [handleWindowUpdateFrame, avoids_bind]

theorem safe_handleRstStreamFrame (f : RstStreamFrame) : Safe (handleRstStreamFrame ops f) s := by
  simp [handleRstStreamFrame, avoids_bind]

/-! ### ADD_ADDRESS frames -/

theorem safe_requireCryptoStream : Safe (requireCryptoStream ops) s := by
  intro e s' h
  unfold requireCryptoStream at h
  split at h
  · cases h
  · cases h
    exact id

theorem safe_runPacker {α : Type} (x : PackM (Streams φ) α) : Safe (runPacker x) s := by
  intro e s' h
  unfold runPacker at h
  cases hx : x s.packer with
  | ok => simp [hx] at h
  | error err packer =>
    rw [hx] at h
    cases err
    case nilDereference =>
      cases h
      exact id
    all_goals cases h

theorem safe_sendPackedPacket (packet : PackedPacket) :
    Safe (sendPackedPacket ops i packet pathID) s := by
  refine (avoids_get s).bind fun s₁ s₂ => ?_
  refine (avoids_modify _ s₂).bind fun _ s₃ => ?_
  split <;> exact avoids_pure _ _

theorem safe_sendPacked (packed : Except PackError (Option PackedPacket)) :
    Safe (sendPacked ops i pathID packed) s := by
  rcases packed with err | _ | packet
  · exact avoids_pure _ _
  · exact avoids_pure _ _
  · exact safe_sendPackedPacket packet

theorem safe_sendPing : Safe (sendPing ops i pathID) s := by
  refine (avoids_get s).bind fun s₁ s₂ => ?_
  refine (avoids_modify _ s₂).bind fun _ s₃ => ?_
  refine (safe_requireCryptoStream).bind fun _ s₄ => ?_
  refine (safe_runPacker _).bind fun packed s₅ => ?_
  exact safe_sendPacked packed

theorem safe_createPath (addrs : UDPAddr × UDPAddr) : Safe (createPath ops i addrs) s := by
  refine (avoids_get s).bind fun s₁ s₂ => avoids_ite (avoids_pure _ _) ?_
  exact (avoids_modify _ s₂).bind fun _ s₃ => safe_sendPing

theorem safe_createEach (pairs : List (UDPAddr × UDPAddr)) (s : Session κ φ ρ) :
    Safe (createEach ops i pairs) s := by
  induction pairs generalizing s with
  | nil => exact avoids_pure _ _
  | cons addrs rest ih =>
    refine (safe_createPath addrs).bind fun err s' => ?_
    cases err with
    | some => exact avoids_pure _ _
    | none => exact ih s'

theorem safe_createAllPaths : Safe (createAllPaths ops i) s := by
  refine (avoids_get s).bind fun s₁ s₂ => ?_
  cases s₁.perspective with
  | server => exact (avoids_modify _ s₂).bind fun _ _ => avoids_pure _ _
  | client =>
    refine (safe_createEach _ s₂).bind fun err s₃ => ?_
    cases err with
    | some => exact avoids_pure _ _
    | none => exact (avoids_modify _ s₃).bind fun _ _ => avoids_pure _ _

theorem safe_handleAddAddressFrame (f : AddAddressFrame) :
    Safe (handleAddAddressFrame ops i f) s := by
  refine avoids_ite ?_ (avoids_pure _ _)
  exact avoids_ite (safe_createAllPaths) (avoids_pure _ _)

/-! ### CLOSE_PATH frames -/

theorem safe_forgetPath (streamIDs : List ℕ)
    (s : Session κ φ ρ) : Safe (forgetPath pathID streamIDs) s := by
  induction streamIDs generalizing s with
  | nil => exact avoids_pure _ _
  | cons streamID rest ih =>
    refine (avoids_get s).bind fun s₁ s₂ => ?_
    refine (avoids_modify _ s₂).bind fun _ s₃ => ?_
    split
    · exact avoids_pure _ _
    · exact (avoids_throw _ _).mpr id
    · refine avoids_ite ?_ (avoids_pure _ _)
      exact (avoids_modify _ s₃).bind fun _ s₄ => ih s₄

theorem safe_closePath (sendClosePathFrame : Bool) :
    Safe (closePath ops pathID sendClosePathFrame) s := by
  refine (avoids_get s).bind fun s₁ s₂ => ?_
  split
  · exact avoids_pure _ _
  · refine avoids_ite (avoids_pure _ _) ?_
    refine (avoids_modify _ s₂).bind fun _ s₃ => ?_
    refine (safe_forgetPath _ s₃).bind fun err s₄ => ?_
    split
    · exact avoids_pure _ _
    · refine (avoids_modify _ s₄).bind fun _ s₅ => ?_
      exact (avoids_modify _ s₅).bind fun _ s₆ => avoids_pure _ _

/-- `closePath` has checked that the path exists. -/
theorem safe_handleClosePathFrame (f : ClosePathFrame) : Safe (handleClosePathFrame ops f) s := by
  refine avoids_bind.mpr ⟨safe_closePath false, ?_⟩
  rintro (_ | err) s' hclose
  · obtain ⟨pth, closeChan, -, hpaths, -⟩ := closePath_ok hclose
    refine (safe_path_iff.mpr (by simp [hpaths])).bind fun pth s₁ => ?_
    exact (avoids_modify _ s₁).bind fun _ _ => avoids_pure _ _
  · exact avoids_pure _ _

/-! ## Acknowledgements -/

theorem safe_handleAckFrame_iff {f : AckFrame} :
    Safe (handleAckFrame ops i f) s ↔ s.paths f.pathID ≠ none := by
  rw [← safe_path_iff]
  refine avoids_bind.trans (and_iff_left ?_)
  intro pth s₁ _
  refine (avoids_modify _ s₁).bind fun _ s₂ => ?_
  split
  · exact avoids_pure _ _
  · exact (avoids_modify _ s₂).bind fun _ _ => avoids_pure _ _

/-! ## PATHS frames -/

/-- One round of the loop over RTTs panics on a missing path; otherwise paths are
marked, but neither created nor removed. -/
theorem updateRemoteRTT_cases (remoteRTT : ℤ) :
    (failedRTT ≤ remoteRTT ∧ s.paths pathID = none ∧ ∃ s', updateRemoteRTT pathID remoteRTT s =
        .error (.missingPath pathID) s') ∨
    ((failedRTT ≤ remoteRTT → s.paths pathID ≠ none) ∧
      ∃ s', updateRemoteRTT pathID remoteRTT s = .ok () s' ∧
        s'.perspective = s.perspective ∧ SamePaths s s') := by
  let s₁ : Session κ φ ρ := { s with
    remoteRTTs := Function.update s.remoteRTTs pathID (some remoteRTT) }
  unfold updateRemoteRTT
  rw [modify_bind]
  split_ifs with hfailed
  · cases hpth : s.paths pathID with
    | none =>
      exact .inl ⟨hfailed, rfl, s₁, bind_of_error (path_of_none hpth)⟩
    | some pth =>
      rw [bind_of_ok (path_of_some (s := s₁) hpth)]
      exact .inr ⟨fun _ => Option.some_ne_none _, _, rfl, rfl, samePaths_modifyPath _⟩
  · exact .inr ⟨fun h => absurd h hfailed, s₁, rfl, rfl, fun _ => Iff.rfl⟩

theorem failedPathsExist_cons {p : PathID × ℤ} {paths : List (PathID × ℤ)} :
    FailedPathsExist s (p :: paths) ↔
      (failedRTT ≤ p.2 → s.paths p.1 ≠ none) ∧ FailedPathsExist s paths :=
  forall_mem_cons

theorem SamePaths.failedPathsExist {s' : Session κ φ ρ} (h : SamePaths s s')
    (paths : List (PathID × ℤ)) : FailedPathsExist s' paths ↔ FailedPathsExist s paths := by
  simp only [FailedPathsExist, ne_eq, h _]

/-- The paths of a frame at some indices, with their RTTs. -/
def pathsAt (f : PathsFrame) (indices : List ℕ) : List (PathID × ℤ) :=
  indices.filterMap fun i => (f.pathIDs.zip f.remoteRTTs)[i]?

theorem mem_pathsAt_range (hf : f.WellFormed) {p : PathID × ℤ} :
    p ∈ pathsAt f (List.range f.numPaths) ↔ p ∈ f.pathIDs.zip f.remoteRTTs := by
  rw [pathsAt, mem_filterMap, mem_iff_getElem?]
  refine exists_congr fun i => and_iff_right_of_imp fun hi => ?_
  have hlen := (List.getElem?_eq_some_iff.mp hi).1
  rw [length_zip, hf.pathIDs, hf.remoteRTTs, Nat.min_self] at hlen
  exact mem_range.mpr hlen

theorem updateRemoteRTTs_cases (hf : f.WellFormed) (indices : List ℕ)
    (s : Session κ φ ρ) (hindices : ∀ i ∈ indices, i < f.numPaths) :
    (¬FailedPathsExist s (pathsAt f indices) ∧ ∃ pathID s', updateRemoteRTTs f indices s =
        .error (.missingPath pathID) s') ∨
    (FailedPathsExist s (pathsAt f indices) ∧ ∃ s', updateRemoteRTTs f indices s = .ok () s' ∧
        s'.perspective = s.perspective) := by
  induction indices generalizing s with
  | nil => exact .inr ⟨fun _ hp => absurd hp not_mem_nil, s, rfl, rfl⟩
  | cons i is ih =>
    obtain ⟨hi, his⟩ := forall_mem_cons.mp hindices
    obtain ⟨pathID, hpathID⟩ : ∃ x, f.pathIDs[i]? = some x :=
      ⟨_, List.getElem?_eq_getElem (hf.pathIDs ▸ hi)⟩
    obtain ⟨rtt, hrtt⟩ : ∃ x, f.remoteRTTs[i]? = some x :=
      ⟨_, List.getElem?_eq_getElem (hf.remoteRTTs ▸ hi)⟩
    have hzip : (f.pathIDs.zip f.remoteRTTs)[i]? = some (pathID, rtt) :=
      List.getElem?_zip_eq_some.mpr ⟨hpathID, hrtt⟩
    rw [updateRemoteRTTs, hpathID, hrtt, pathsAt, filterMap_cons_some hzip, failedPathsExist_cons]
    rcases updateRemoteRTT_cases rtt with
      ⟨hfailed, hnone, s', herror⟩ | ⟨hsafe, s', hok, hperspective, hsame⟩
    · exact .inl ⟨fun h => h.1 hfailed hnone, pathID, s', bind_of_error herror⟩
    · have hround := bind_of_ok (f := fun _ => updateRemoteRTTs f is) hok
      rw [← hsame.failedPathsExist]
      rcases ih s' his with ⟨hrest, id, s'', herror⟩ | ⟨hrest, s'', hok', h⟩
      · exact .inl ⟨fun h => hrest h.2, id, s'', hround.trans herror⟩
      · exact .inr ⟨⟨hsafe, hrest⟩, s'', hround.trans hok', h.trans hperspective⟩

/-- With addresses in the frame the server creates the missing paths. -/
theorem safe_createPaths (hf : f.WellFormed) (hnum : 0 < f.numIPs) (now : ℤ) {indices : List ℕ}
    (hindices : ∀ i ∈ indices, i < f.numPaths) (s : Session κ φ ρ) :
    Safe (createPathsFromRemotePathsFrame ops f localAddr now indices) s := by
  induction indices generalizing s with
  | nil => exact avoids_pure _ _
  | cons i is ih =>
    obtain ⟨hi, his⟩ := forall_mem_cons.mp hindices
    have hpathIDs : i < f.pathIDs.length := hf.pathIDs ▸ hi
    have hips : i < f.remoteAddrsIP.length := by
      rwa [hf.remoteAddrsIP, if_pos hnum]
    have hports : i < f.remoteAddrsPort.length := by
      rwa [hf.remoteAddrsPort, if_pos hnum]
    rw [createPathsFromRemotePathsFrame, List.getElem?_eq_getElem hpathIDs,
      List.getElem?_eq_getElem hips, List.getElem?_eq_getElem hports]
    refine (avoids_get s).bind fun s₁ s₂ => ?_
    split
    · exact ih his s₂
    · exact avoids_pure _ _
    · exact (avoids_modify _ s₂).bind fun _ s₃ => ih his s₃

/-- Without addresses in the frame the first path is out of range. -/
theorem safe_createPaths_iff (hf : f.WellFormed) {now : ℤ} :
    Safe (createPathsFromRemotePathsFrame ops f localAddr now
      (List.range f.pathIDs.length)) s ↔ f.numPaths = 0 ∨ 0 < f.numIPs := by
  rw [hf.pathIDs]
  by_cases hnum : 0 < f.numIPs
  · exact iff_of_true (safe_createPaths hf hnum now (by simp) s) (.inr hnum)
  · have hips : f.remoteAddrsIP = [] := by
      rw [← length_eq_zero_iff, hf.remoteAddrsIP, if_neg hnum]
    cases hpaths : f.numPaths with
    | zero =>
      exact iff_of_true (avoids_pure _ _) (.inl rfl)
    | succ n =>
      refine iff_of_false ?_ (by omega)
      rw [range_succ_eq_map, createPathsFromRemotePathsFrame, hips]
      simp [Panic.BadAccess]

theorem safe_handlePathsFrame_iff (hf : f.WellFormed) :
    Safe (handlePathsFrame ops i localAddr f) s ↔ FrameSafe s (.paths f) := by
  have hall : FailedPathsExist s (pathsAt f (List.range f.numPaths)) ↔
      FailedPathsExist s (f.pathIDs.zip f.remoteRTTs) :=
    forall_congr' fun _ => imp_congr_left (mem_pathsAt_range hf)
  rcases updateRemoteRTTs_cases hf (List.range f.numPaths) s (by simp) with
    ⟨hbad, id, s', herror⟩ | ⟨hsafe, s', hok, hperspective⟩
  · rw [hall] at hbad
    refine iff_of_false ?_ (fun h => hbad h.1)
    rw [handlePathsFrame, Safe, avoids_bind_of_error herror]
    exact fun h => h trivial
  · rw [hall] at hsafe
    rw [handlePathsFrame, Safe, avoids_bind_of_ok hok]
    refine Iff.trans ?_ (and_iff_right hsafe).symm
    rw [avoids_bind_of_ok (get_ok.mpr ⟨rfl, rfl⟩), ← hperspective]
    cases s'.perspective with
    | server =>
      simp only [forall_const]
      exact Iff.trans (avoids_map _ _ _) (safe_createPaths_iff hf)
    | client => simp

/-! ## All frames -/

theorem safe_handleFrame_iff {f : Frame} (hf : f.WellFormed) :
    Safe (handleFrame ops i pathID localAddr f) s ↔ FrameSafe s f := by
  cases f with
  | stream f => exact iff_of_true (safe_handleStreamFrame f) trivial
  | ack => exact safe_handleAckFrame_iff
  | rstStream f => exact iff_of_true (safe_handleRstStreamFrame f) trivial
  | windowUpdate f =>
    exact iff_of_true (safe_handleWindowUpdateFrame f) trivial
  | closePath f =>
    refine iff_of_true ?_ trivial
    exact (safe_handleClosePathFrame f).bind fun _ _ => avoids_pure _ _
  | paths f =>
    exact Iff.trans (avoids_map _ _ _) (safe_handlePathsFrame_iff hf)
  | addAddress f =>
    refine iff_of_true ?_ trivial
    refine (safe_handleAddAddressFrame f).bind fun err s₁ => ?_
    exact (avoids_modify _ s₁).bind fun _ _ => avoids_pure _ _
  | connectionClose f | stopWaiting f | blocked f =>
    refine iff_of_true ?_ trivial
    exact (avoids_modify _ s).bind fun _ _ => avoids_pure _ _
  | goaway | ping => exact iff_of_true (avoids_pure _ s) trivial

theorem safe_handleFramesNew_iff {frames : List Frame} (hframes : ∀ f ∈ frames, f.WellFormed) :
    Safe (handleFramesNew ops pathID localAddr i frames) s ↔
      FramesSafe ops pathID localAddr i s frames := by
  induction frames generalizing i s with
  | nil => exact iff_of_true (avoids_pure _ _) trivial
  | cons f fs ih =>
    obtain ⟨hf, hfs⟩ := forall_mem_cons.mp hframes
    refine avoids_bind.trans (and_congr (safe_handleFrame_iff hf) ?_)
    refine forall_congr' fun err => forall_congr' fun s' =>
      imp_congr_right fun _ => ?_
    split_ifs with hignored
    · exact (ih hfs).trans ⟨fun h _ => h, fun h => h hignored⟩
    · exact iff_of_true (avoids_pure _ _) fun h => absurd h hignored

/-- In every state, handling the frames that `Unpack` returns for a packet
neither dereferences a missing path nor indexes past the end of a slice if and
only if every frame that is reached is safe in the state it is handled in: an ACK
frame is for a path that exists, all paths in a PATHS frame with an RTT of 30
minutes or more exist, and a PATHS frame with paths has addresses if it is
received by a server. -/
theorem handleFramesNew_no_bad_access_iff (ops : Interfaces κ φ ρ) (aead : Open)
    (publicHeaderBinary : List UInt8) (packetNumber packetNumberLen : ℕ) (data : List UInt8)
    (frames : List Frame) (encryptionLevel : EncryptionLevel) (pathID : PathID)
    (localAddr : UDPAddr) (i : Inputs) (s : Session κ φ ρ)
    (hunpack : unpack aead s.version publicHeaderBinary packetNumber
      packetNumberLen data = .ok (frames, encryptionLevel)) :
    Avoids Panic.BadAccess (handleFramesNew ops pathID localAddr i frames) s ↔
      FramesSafe ops pathID localAddr i s frames :=
  safe_handleFramesNew_iff (unpack_wellFormed hunpack)

/-- The panic that handling the frames of a packet ends with. -/
def panicOfPacket (ops : Interfaces κ φ ρ) (s : Session κ φ ρ) (data : List UInt8) : Option Panic :=
  match unpack plainOpen s.version [] 1 1 data with
  | .error _ => none
  | .ok (frames, _) =>
    match handleFramesNew ops initialPathID ⟨[10, 0, 0, 1], 1⟩ .plaintext frames s with
    | .ok _ _ => none
    | .error panic _ => some panic

/-- A new server panics on a PATHS frame with one path and no addresses, on an ACK
frame for path 7, and on a PATHS frame with the largest RTT for path 7. -/
theorem server_panics_on_peer_frames :
    let s := statelessSession .server
    panicOfPacket .stateless s [0x12, 1, 1, 0, 0, 0, 0] = some .indexOutOfRange ∧
      panicOfPacket .stateless s [0x50, 7, 1, 0, 0, 1, 0] = some (.missingPath 7) ∧
      panicOfPacket .stateless s [0x12, 1, 1, 1, 7, 0xff, 0xff, 10, 0, 0, 9,
        0, 80] = some (.missingPath 7) := by
  decide

/-- A server handles a PATHS frame with the address of a new path. -/
theorem handleFramesNew_no_bad_access_new_path :
    let s := statelessSession .server
    let frame : Frame := .paths ⟨1, 1, 1, [1], [0], [[10, 0, 0, 9]], [80]⟩
    Avoids Panic.BadAccess
      (handleFramesNew .stateless 0 ⟨[10, 0, 0, 1], 1⟩ .plaintext [frame]) s := by
  intro s frame
  have hunpack : unpack plainOpen s.version [] 1 1 [0x12, 1, 1, 1, 1, 0, 0, 10, 0, 0, 9, 0, 80] =
        .ok ([frame], .forwardSecure) := by
    decide
  refine (handleFramesNew_no_bad_access_iff .stateless plainOpen [] 1 1 _
    [frame] .forwardSecure 0 ⟨[10, 0, 0, 1], 1⟩ .plaintext s hunpack).mpr ?_
  refine ⟨⟨?_, fun _ => Or.inr Nat.one_pos⟩, fun _ _ _ _ => trivial⟩
  simp [FailedPathsExist, failedRTT, millisecond]

end Pstream.Session
