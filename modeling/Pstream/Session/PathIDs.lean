import Pstream.Session.PathTable

/-!
# The IDs of paths

The methods that create paths change the table of the paths of a session by
`PathTable.create` and `PathTable.add`.  Hence in every sequence of creations by
this side and by the peer new paths have new IDs, until a client has used all of
its 128 path IDs.
-/

namespace Pstream.Session

open List Support Wire PathTable

variable {κ φ ρ : Type}

/-! ## The table of a session -/

def pathTable (s : Session κ φ ρ) : PathTable where
  addrs id := (s.paths id).map fun pth => (pth.localAddr, pth.remoteAddr)
  openPaths := s.openPaths
  manager := s.pathManager
  perspective := s.perspective
  createPaths := s.createPaths

variable {ops : Interfaces κ φ ρ} {s : Session κ φ ρ} {side : Perspective} {n : ℕ} {id : PathID}
  {α : Type} {s' : Session κ φ ρ} {t : PathTable}

theorem pathTable_addrs_none : s.pathTable.addrs id = none ↔ s.paths id = none := by
  simp [pathTable]

theorem hasPath_eq (a : UDPAddr × UDPAddr) : s.hasPath a.1 a.2 = s.pathTable.has a := by
  refine congrArg (s.openPaths.any ·) (funext fun id => ?_)
  cases hpth : s.paths id with
  | none => simp [pathTable, hpth]
  | some => simp [pathTable, hpth, Prod.ext_iff]

theorem pathTable_addPath (ops : Interfaces κ φ ρ) (s : Session κ φ ρ)
    (id : PathID) (a : UDPAddr × UDPAddr) (now : ℤ) :
    (s.addPath ops id a.1 a.2 now).pathTable = s.pathTable.add id a := by
  refine congrArg (PathTable.mk · _ _ _ _) (funext fun other => ?_)
  by_cases hother : other = id
  · subst hother
    simp [addPath, Path.new]
  · simp [addPath, pathTable, hother]

theorem pathTable_addOwnPath (ops : Interfaces κ φ ρ) (s : Session κ φ ρ) (a : UDPAddr × UDPAddr)
    (now : ℤ) : (s.addOwnPath ops a.1 a.2 now).pathTable = s.pathTable.addOwn a := by
  have hadd := pathTable_addPath ops s s.pathManager.nxtPathID a now
  exact congrArg (fun t : PathTable => { t with
    manager := { t.manager with nxtPathID := t.manager.nxtPathID + 2 } }) hadd

theorem pathTable_modifyPath {pathID : PathID} {f : Path κ ρ → Path κ ρ}
    (h : ∀ pth, (f pth).localAddr = pth.localAddr ∧ (f pth).remoteAddr = pth.remoteAddr) :
    (s.modifyPath pathID f).pathTable = s.pathTable := by
  refine congrArg (PathTable.mk · _ _ _ _) (funext fun id => ?_)
  by_cases hid : id = pathID
  · subst hid
    simp [modifyPath, Function.comp_def, h]
  · simp [modifyPath, hid]

/-- The method does not change the table of paths. -/
abbrev KeepsTable {α : Type} (x : SessionM κ φ ρ α) : Prop := Evolves (fun _ _ => False) pathTable x

theorem KeepsTable.eq {x : SessionM κ φ ρ α} (h : KeepsTable x) (s : Session κ φ ρ) :
    (stateAfter x s).pathTable = s.pathTable := by
  rcases (h s).cases_tail with heq | ⟨_, _, hstep⟩
  · exact heq
  · exact hstep.elim

theorem keepsTable_requireCryptoStream : KeepsTable (requireCryptoStream ops) := by
  intro s
  unfold requireCryptoStream stateAfter
  dsimp only
  rcases s.streams.cryptoStream ops.flowControl with ⟨streams, _ | str⟩ <;> exact .refl

theorem keepsTable_runPacker (x : Packer.PackM (Streams φ) α) :
    KeepsTable (runPacker x : SessionM κ φ ρ _) := by
  intro s
  unfold runPacker stateAfter
  dsimp only
  rcases x s.packer with ⟨a, packer⟩ | ⟨err, packer⟩
  · exact .refl
  · cases err <;> exact .refl

variable {i : Inputs}

theorem keepsTable_sendPackedPacket (packet : Packer.PackedPacket) (pathID : PathID) :
    KeepsTable (sendPackedPacket ops i packet pathID) := by
  refine evolves_get.bind fun s => ?_
  refine evolves_modify_bind (fun s => pathTable_modifyPath fun _ => ⟨rfl, rfl⟩) ?_
  split <;> exact evolves_pure _

theorem keepsTable_sendPing (pathID : PathID) : KeepsTable (sendPing ops i pathID) := by
  refine evolves_get.bind fun s => ?_
  refine evolves_modify_bind (fun s => pathTable_modifyPath fun _ => ⟨rfl, rfl⟩) ?_
  refine keepsTable_requireCryptoStream.bind fun _ => ?_
  refine (keepsTable_runPacker _).bind fun packed => ?_
  rcases packed with err | _ | packet
  · exact evolves_pure _
  · exact evolves_pure _
  · exact keepsTable_sendPackedPacket packet pathID

/-! ## Creating paths -/

theorem pathTable_createPath (ops : Interfaces κ φ ρ) (i : Inputs) (a : UDPAddr × UDPAddr)
    (s : Session κ φ ρ) : (stateAfter (createPath ops i a) s).pathTable = s.pathTable.create a := by
  unfold createPath
  rw [stateAfter_get_bind, hasPath_eq, create]
  cases s.pathTable.has a with
  | true => rfl
  | false =>
    have hown := pathTable_addOwnPath ops s a (i.clock 0)
    refine Eq.trans ?_ hown
    exact (keepsTable_sendPing _).eq (s.addOwnPath ops a.1 a.2 (i.clock 0))

theorem pathTable_createEach (pairs : List (UDPAddr × UDPAddr)) (s : Session κ φ ρ) :
    ∃ n, 0 < n ∧ (stateAfter (createEach ops i pairs) s).pathTable =
      (pairs.take n).foldl create s.pathTable := by
  induction pairs generalizing s with
  | nil => exact ⟨1, Nat.one_pos, rfl⟩
  | cons a rest ih =>
    have hfirst := pathTable_createPath ops i a s
    rw [createEach]
    cases hrun : createPath ops i a s with
    | error e s' =>
      rw [stateAfter, hrun] at hfirst
      rw [stateAfter_bind_of_error hrun]
      exact ⟨1, Nat.one_pos, hfirst⟩
    | ok err s' =>
      rw [stateAfter_of_ok hrun] at hfirst
      rw [stateAfter_bind_of_ok hrun]
      cases err with
      | some => exact ⟨1, Nat.one_pos, hfirst⟩
      | none =>
        obtain ⟨n, -, hn⟩ := ih s'
        rw [hfirst] at hn
        exact ⟨n + 1, Nat.succ_pos n, hn⟩

/-- A server advertises its addresses, which the paths do not depend on. -/
theorem pathTable_createAllPaths (ops : Interfaces κ φ ρ) (i : Inputs) (s : Session κ φ ρ) :
    s.perspective = .server ∧ (stateAfter (createAllPaths ops i) s).pathTable =
          s.advertiseAddresses.pathTable ∨
      s.perspective = .client ∧ ∃ n, 0 < n ∧ (stateAfter (createAllPaths ops i) s).pathTable =
          (s.pathManager.addressPairs.take n).foldl create s.pathTable := by
  unfold createAllPaths
  rw [stateAfter_get_bind]
  cases hside : s.perspective with
  | server => exact .inl ⟨rfl, rfl⟩
  | client =>
    refine .inr ⟨rfl, ?_⟩
    obtain ⟨n, hpos, hn⟩ := pathTable_createEach s.pathManager.addressPairs s
    refine ⟨n, hpos, ?_⟩
    rw [← hn]
    cases hrun : createEach ops i s.pathManager.addressPairs s with
    | error => rw [stateAfter_bind_of_error hrun, stateAfter, hrun]
    | ok err s' =>
      rw [stateAfter_bind_of_ok hrun, stateAfter_of_ok hrun]
      cases err with
      | some | none => rfl

/-! ## Sequences of creations -/

/-- What may create paths, and the changes of the local addresses. -/
inductive PathEvent
  | localAddrs (localAddrs : List UDPAddr)
  /-- the handshake is complete or the local addresses have changed -/
  | createPaths (i : Inputs)
  | handleAddAddressFrame (i : Inputs) (frame : AddAddressFrame)
  | createPathFromRemote (now : ℤ) (p : ReceivedPacket)
  | createPathsFromRemotePathsFrame (now : ℤ) (frame : PathsFrame) (localAddr : UDPAddr)

/-- The method that handles the event. -/
def pathCall (ops : Interfaces κ φ ρ) : PathEvent → SessionM κ φ ρ (Option SessionError)
  | .localAddrs localAddrs => do
      modify fun s => { s with
        pathManager := { s.pathManager with localAddrs := localAddrs } }
      pure none
  | .createPaths i => do
      let s ← get
      if s.createPaths then createAllPaths ops i else pure none
  | .handleAddAddressFrame i frame => handleAddAddressFrame ops i frame
  | .createPathFromRemote now p => createPathFromRemote ops now p
  | .createPathsFromRemotePathsFrame now frame localAddr =>
    createPathsFromRemotePathsFrame ops frame localAddr now (List.range frame.pathIDs.length)

def pathStep (ops : Interfaces κ φ ρ) (s : Session κ φ ρ) (e : PathEvent) : Session κ φ ρ :=
  stateAfter (pathCall ops e) s

def PathEvent.initiator (perspective : Perspective) : PathEvent → Perspective
  | .createPathFromRemote _ _ => peer perspective
  | .createPathsFromRemotePathsFrame _ _ _ => peer perspective
  | _ => perspective

/-- The event adds paths with new IDs of the right parity and changes no other
entry of the map of paths. -/
def AddsPaths (ops : Interfaces κ φ ρ) (s : Session κ φ ρ) (e : PathEvent) :
    Prop :=
  ∃ ids, Adds (e.initiator s.perspective) s.pathTable (pathStep ops s e).pathTable ids

/-- The pairs of addresses for which the event creates paths. -/
def PathEvent.pairs (pm : PathManager) : PathEvent → List (UDPAddr × UDPAddr)
  | .createPaths _ => pm.addressPairs
  | .handleAddAddressFrame _ frame => (pm.addRemoteAddr frame).addressPairs
  | _ => []

/-- At a client that creates paths the odd path IDs that are left are enough for the pairs
of addresses that have no path yet. -/
def EnoughIDs (s : Session κ φ ρ) (e : PathEvent) : Prop :=
  s.perspective = .client → s.createPaths = true →
    s.pathTable.odd + (s.pathTable.fresh (e.pairs s.pathManager)).card ≤ 128

instance (s : Session κ φ ρ) (e : PathEvent) : Decidable (EnoughIDs s e) :=
  inferInstanceAs (Decidable (_ → _ → _))

variable {now : ℤ}

theorem numbered_newSession (perspective : Perspective) (version : ℤ)
    (connectionID maxIncomingStreams maxOutgoingStreams : ℕ) (createPaths : Bool)
    (localAddr remoteAddr : UDPAddr) (localAddrs : List UDPAddr) (flow : φ) :
    (newSession ops perspective version connectionID maxIncomingStreams
      maxOutgoingStreams createPaths localAddr remoteAddr localAddrs flow
      now).pathTable.Numbered := by
  constructor
  · simp [pathTable, newSession]
  · simp [odd, pathTable, newSession, initialPathID]
  · intro hside
    have hside : perspective = .client := hside
    simp [odd, pathTable, newSession, hside, initialPathID]
  · intro _ id hid hused
    have hne : id ≠ initialPathID := by
      rintro rfl
      cases hid
    simp [pathTable, newSession, hne] at hused

/-- The event keeps the numbering and adds what it may add. -/
def Grows (side : Perspective) (s s' : Session κ φ ρ) : Prop :=
  s'.pathTable.Numbered ∧ s'.perspective = s.perspective ∧
    ∃ ids, Adds side s.pathTable s'.pathTable ids

theorem Grows.refl (h : s.pathTable.Numbered) : Grows side s s := ⟨h, rfl, [], .none rfl rfl⟩

theorem Grows.trans {s'' : Session κ φ ρ} (h : Grows side s s') (h' : Grows side s' s'') :
    Grows side s s'' := by
  obtain ⟨-, hside, ids, hids⟩ := h
  obtain ⟨hnum, hside', ids', hids'⟩ := h'
  exact ⟨hnum, hside'.trans hside, ids ++ ids', hids.trans hids'⟩

theorem grows_of_eq (h : s.pathTable.Numbered) (haddrs : s'.pathTable.addrs = s.pathTable.addrs)
    (hopen : s'.openPaths = s.openPaths)
    (hnext : s'.pathManager.nxtPathID = s.pathManager.nxtPathID)
    (hside : s'.perspective = s.perspective) : Grows side s s' :=
  ⟨h.of_eq haddrs hopen hnext hside, hside, [], .none haddrs hopen⟩

theorem grows_addPath (ops : Interfaces κ φ ρ) (h : s.pathTable.Numbered) (a : UDPAddr × UDPAddr)
    (now : ℤ) (hnew : s.paths id = none) (hcheck : checkRemotePathID s.perspective id = none) :
    Grows (peer s.perspective) s (s.addPath ops id a.1 a.2 now) := by
  have hnone := pathTable_addrs_none.mpr hnew
  rw [Grows, pathTable_addPath]
  exact ⟨h.add a hnone hcheck, rfl, [id], adds_add a hnone (h.initiatedBy_peer hnone hcheck)⟩

theorem grows_createPathFromRemote (p : ReceivedPacket) (h : s.pathTable.Numbered) :
    Grows (peer s.perspective) s (stateAfter (createPathFromRemote ops now p) s) := by
  unfold createPathFromRemote
  rw [stateAfter_get_bind]
  split
  · exact .refl h
  · exact .refl h
  · next hnew hcheck =>
      exact grows_addPath ops h (p.localAddr, p.remoteAddr) now hnew hcheck

theorem grows_createPathsFromRemotePathsFrame (frame : PathsFrame) (localAddr : UDPAddr)
    (is : List ℕ) (h : s.pathTable.Numbered) :
    Grows (peer s.perspective) s (stateAfter
        (createPathsFromRemotePathsFrame ops frame localAddr now is) s) := by
  induction is generalizing s with
  | nil => exact .refl h
  | cons i is ih =>
    unfold createPathsFromRemotePathsFrame
    split
    · next pathID remoteIP remotePort _ _ _ =>
        rw [stateAfter_get_bind]
        split
        · exact ih h
        · exact .refl h
        · next hnew hcheck =>
            have hadd := grows_addPath ops h (localAddr, ⟨remoteIP, remotePort⟩) now hnew hcheck
            exact hadd.trans (ih hadd.1)
    · exact .refl h

/-- What the client creates is bounded by the pairs without a path. -/
theorem grows_createAllPaths (h : s.pathTable.Numbered)
    (hfits : s.perspective = .client → s.pathTable.odd +
      (s.pathTable.fresh s.pathManager.addressPairs).card ≤ 128) :
    Grows s.perspective s (stateAfter (createAllPaths ops i) s) := by
  rcases pathTable_createAllPaths ops i s with
    ⟨hside, htable⟩ | ⟨hside, n, -, htable⟩
  · have hgrow : Grows s.perspective s s.advertiseAddresses := grows_of_eq h rfl rfl rfl rfl
    rw [Grows, htable]
    exact ⟨hgrow.1, congrArg PathTable.perspective htable, hgrow.2.2⟩
  · have hcard := Finset.card_le_card (s.pathTable.fresh_take n s.pathManager.addressPairs)
    have hbound := (Nat.add_le_add_left hcard _).trans (hfits hside)
    obtain ⟨hnum, ids, hids⟩ := h.foldl_create hside hbound
    have hkept := foldl_create_perspective s.pathTable (s.pathManager.addressPairs.take n)
    rw [Grows, htable, hside]
    refine ⟨hnum, ?_, ids, hids⟩
    rw [← hside]
    exact (congrArg PathTable.perspective htable).trans hkept

theorem grows_pathStep (h : s.pathTable.Numbered) {e : PathEvent} (hfits : EnoughIDs s e) :
    Grows (e.initiator s.perspective) s (pathStep ops s e) := by
  cases e with
  | localAddrs => exact grows_of_eq h rfl rfl rfl rfl
  | createPaths i =>
    unfold pathStep pathCall
    rw [stateAfter_get_bind]
    split_ifs with hcreates
    · exact grows_createAllPaths h fun hside => hfits hside hcreates
    · exact .refl h
  | handleAddAddressFrame i frame =>
    change Grows s.perspective s (stateAfter (Session.handleAddAddressFrame ops i frame) s)
    unfold Session.handleAddAddressFrame
    split_ifs with hversion
    · have hknown : Grows s.perspective s { s with
          pathManager := s.pathManager.addRemoteAddr frame } := by
        refine grows_of_eq h rfl rfl ?_ rfl
        dsimp only [PathManager.addRemoteAddr]
        split_ifs <;> rfl
      refine hknown.trans ?_
      unfold stateAfter
      rw [modify_bind, get_bind]
      split_ifs with hcreates
      · exact grows_createAllPaths hknown.1 fun hside => hfits hside hcreates
      · exact .refl hknown.1
    · exact .refl h
  | createPathFromRemote now p => exact grows_createPathFromRemote p h
  | createPathsFromRemotePathsFrame now frame localAddr =>
    exact grows_createPathsFromRemotePathsFrame frame localAddr _ h

/-- From a new session on, as long as the client does not need more than 128 odd
path IDs, every creation of paths uses new path IDs, and their parity tells which
side has initiated them. -/
theorem run_addsPaths (ops : Interfaces κ φ ρ) (perspective : Perspective) (version : ℤ)
    (connectionID maxIncomingStreams maxOutgoingStreams : ℕ) (createPaths : Bool)
    (localAddr remoteAddr : UDPAddr) (localAddrs : List UDPAddr) (flow : φ) (now : ℤ)
    (es : List PathEvent) (hes : AllSteps (pathStep ops) EnoughIDs
      (newSession ops perspective version connectionID maxIncomingStreams
        maxOutgoingStreams createPaths localAddr remoteAddr localAddrs flow
        now) es) :
    AllSteps (pathStep ops) (AddsPaths ops)
      (newSession ops perspective version connectionID maxIncomingStreams
        maxOutgoingStreams createPaths localAddr remoteAddr localAddrs flow
        now) es := by
  refine allSteps_of_invariant (I := fun s : Session κ φ ρ => s.pathTable.Numbered) ?_ ?_
    (numbered_newSession ..) hes
  · intro s e hs he
    exact (grows_pathStep hs he).1
  · intro s e hs he
    exact (grows_pathStep hs he).2.2

/-- The client creates two paths and the server one. -/
theorem threePaths_added :
    AllSteps (pathStep .stateless) (AddsPaths .stateless) (statelessSession .client)
      [.localAddrs [⟨[10, 0, 1, 1], 1⟩], .createPaths .plaintext, .createPathFromRemote 0
          ⟨2, 1, 1, [], [], 0, ⟨[10, 0, 0, 1], 1⟩, ⟨[10, 0, 0, 3], 2⟩⟩,
        .handleAddAddressFrame .plaintext ⟨4, ⟨[10, 0, 0, 3], 2⟩⟩] :=
  run_addsPaths _ _ _ _ _ _ _ _ _ _ _ _ _ (by decide +kernel)

/-! ## Running out of path IDs -/

/-- A local address, and the address of the peer of `statelessSession`. -/
def portPair (k : ℕ) : UDPAddr × UDPAddr := (⟨[10, 0, 1, 1], k⟩, ⟨[10, 0, 0, 2], 2⟩)

/-- The only local address is on a certain port, and paths are created. -/
def usePort (k : ℕ) : List PathEvent := [.localAddrs [(portPair k).1], .createPaths .plaintext]

/-- As many local ports as there are numbers below `n` are used in turn. -/
def usePorts (n : ℕ) : List PathEvent := (List.range n).flatMap usePort

theorem usePorts_succ : usePorts (n + 1) = usePorts n ++ usePort n := by
  simp [usePorts, range_succ]

/-- The table after a change of the local addresses. -/
def PathTable.withLocalAddrs (t : PathTable) (localAddrs : List UDPAddr) :
    PathTable :=
  { t with manager := { t.manager with localAddrs := localAddrs } }

/-- The table of a client that has used `n` ports. -/
structure PortsUsed (n : ℕ) (t : PathTable) : Prop where
  numbered : t.Numbered
  client : t.perspective = .client
  creates : t.createPaths = true
  remote : t.manager.remoteAddrs4 = [(portPair 0).2]
  odd : t.odd = n
  ports : ∀ k, n ≤ k → t.has (portPair k) = false
  first : 0 < n → t.addrs 1 = some (portPair 0)

theorem PortsUsed.withLocalAddrs (h : PortsUsed n t) (localAddrs : List UDPAddr) :
    PortsUsed n (t.withLocalAddrs localAddrs) where
  numbered := h.numbered.of_eq rfl rfl rfl rfl
  client := h.client
  creates := h.creates
  remote := h.remote
  odd := h.odd
  ports := h.ports
  first := h.first

theorem PortsUsed.addOwn (h : PortsUsed n t) (hn : n < 128) :
    PortsUsed (n + 1) (t.addOwn (portPair n)) := by
  have hodd : t.odd < 128 := by
    rwa [h.odd]
  have hnew := h.numbered.next_new h.client hodd
  have hadds := h.numbered.adds_addOwn h.client hodd (portPair n)
  have hown := odd_addOwn (portPair n) (h.numbered.next_odd h.client hodd)
  refine ⟨h.numbered.addOwn h.client hodd _, h.client, h.creates, h.remote,
    by rw [hown, h.odd], ?_, ?_⟩
  · intro k hk
    refine Bool.eq_false_iff.mpr fun hhas => ?_
    rcases (has_addOwn hnew).mp hhas with hold | heq
    · simp [h.ports k (by omega)] at hold
    · have hport := congrArg (fun a => a.1.port) heq
      change k = n at hport
      omega
  · intro _
    have hnext := h.numbered.next h.client
    rw [h.odd] at hnext
    rcases Nat.eq_zero_or_pos n with rfl | hpos
    · simp [PathTable.addOwn, PathTable.add, hnext]
    · have hne : (1 : PathID) ∉ [t.manager.nxtPathID] := by
        rw [mem_singleton]
        intro heq
        rw [← heq, h.first hpos] at hnew
        cases hnew
      rw [hadds.others 1 hne]
      exact h.first hpos

/-- Using one more port creates a path, with whatever the next path ID is. -/
theorem PortsUsed.pathTable_usePort (h : PortsUsed n s.pathTable) :
    (run (pathStep ops) s (usePort n)).pathTable =
      (s.pathTable.withLocalAddrs [(portPair n).1]).addOwn (portPair n) := by
  let s' : Session κ φ ρ := { s with
    pathManager := { s.pathManager with localAddrs := [(portPair n).1] } }
  have hpairs : s'.pathManager.addressPairs = [portPair n] := by
    have hremote : s.pathManager.remoteAddrs4 = [(portPair 0).2] := h.remote
    simp [PathManager.addressPairs, s', hremote, portPair]
  have hstep : run (pathStep ops) s (usePort n) =
      stateAfter (createAllPaths ops .plaintext) s' := by
    have hcreates : s'.createPaths = true := h.creates
    change stateAfter (pathCall ops (.createPaths .plaintext)) s' = _
    rw [pathCall, stateAfter_get_bind, if_pos hcreates]
  rcases pathTable_createAllPaths ops .plaintext s' with
    ⟨hside, -⟩ | ⟨-, k, hk, htable⟩
  · cases h.client.symm.trans hside
  · rw [hstep, htable, hpairs, take_of_length_le hk]
    have hhas : s'.pathTable.has (portPair n) = false := h.ports n le_rfl
    rw [foldl_cons, create, hhas]
    rfl

theorem portsUsed_usePorts (hn : n ≤ 128) :
    PortsUsed n (run (pathStep .stateless) (statelessSession .client) (usePorts n)).pathTable := by
  induction n with
  | zero =>
    refine ⟨numbered_newSession .., rfl, rfl, rfl, by decide, ?_,
      fun h => absurd h (Nat.lt_irrefl 0)⟩
    intro k _
    rfl
  | succ n ih =>
    have h := ih (by omega)
    rw [usePorts_succ, run_append, h.pathTable_usePort]
    exact (h.withLocalAddrs _).addOwn hn

/-- The path ID after 255 is the one of the client's first path. -/
theorem PortsUsed.usePort_replaces (h : PortsUsed 128 s.pathTable) :
    (run (pathStep ops) s (usePort 128)).pathTable.addrs 1 = some (portPair 128) ∧
      ¬AllSteps (pathStep ops) (AddsPaths ops) s (usePort 128) := by
  have hafter : (run (pathStep ops) s (usePort 128)).pathTable.addrs 1 = some (portPair 128) := by
    have hlocal := h.withLocalAddrs [(portPair 128).1]
    have hnext := hlocal.numbered.next hlocal.client
    rw [hlocal.odd] at hnext
    rw [h.pathTable_usePort]
    simp [PathTable.addOwn, PathTable.add, hnext]
  refine ⟨hafter, fun hall => ?_⟩
  obtain ⟨ids, hids⟩ := hall.2.1
  have hbefore := h.first (by decide)
  by_cases hmem : 1 ∈ ids
  · have hnew := hids.new 1 hmem
    cases hbefore.symm.trans hnew
  · have hkept := hids.others 1 hmem
    have heq := hafter.symm.trans (hkept.trans hbefore)
    cases Option.some.inj heq

/-- The 129th path of a client takes the place of its first one. -/
theorem wrappedPathID_replaces :
    (run (pathStep .stateless) (statelessSession .client)
        (usePorts 128)).pathTable.addrs 1 = some (portPair 0) ∧
      (run (pathStep .stateless) (statelessSession .client)
        (usePorts 129)).pathTable.addrs 1 = some (portPair 128) ∧
      ¬AllSteps (pathStep .stateless) (AddsPaths .stateless)
        (statelessSession .client) (usePorts 129) := by
  have h := portsUsed_usePorts (le_refl 128)
  have hsplit : usePorts 129 = usePorts 128 ++ usePort 128 := usePorts_succ
  obtain ⟨hafter, hnot⟩ := h.usePort_replaces
  rw [hsplit, run_append, allSteps_append]
  exact ⟨h.first (by decide), hafter, fun hall => hnot hall.2⟩

end Pstream.Session
