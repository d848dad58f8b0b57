import Pstream.Support.Run
import Pstream.Wire.Unpack

/-!
# Opening packets during the handshake

A session installs two more AEADs in the course of its handshake, next to the
null AEAD that it starts with.  `Open` tries them from the strongest to the
weakest, and two flags stop it from falling back behind a level at which it has
already opened a packet.  Hence the encryption levels of the opened packets never
decrease, whatever the AEADs accept and whenever they are installed.
-/

namespace Pstream.Handshake

open List Support Wire

/-! ## The two crypto setups -/

/-- `Open` of the interface `crypto.AEAD`; any partial function. -/
abbrev AEAD := (src : List UInt8) → (packetNumber : ℕ) →
  (associatedData : List UInt8) → Except String (List UInt8)

/-- The fields for opening packets that `cryptoSetupServer` and
`cryptoSetupClient` both have. -/
structure AEADs where
  nullAEAD : AEAD
  secureAEAD : Option AEAD
  forwardSecureAEAD : Option AEAD
  receivedSecurePacket : Bool

variable (h : AEADs)

/-- What `Open` returns when it gets to the null AEAD. -/
def AEADs.openNull : Open := fun src packetNumber associatedData =>
  match h.nullAEAD src packetNumber associatedData with
  | .ok res => .ok (res, .unencrypted)
  | .error err => .error err

/-- The part of `Open` below the forward-secure AEAD, the same in both setups. -/
def AEADs.openSecure (src : List UInt8) (packetNumber : ℕ) (associatedData : List UInt8) :
    AEADs × Except String (List UInt8 × EncryptionLevel) :=
  match h.secureAEAD with
  | none => (h, h.openNull src packetNumber associatedData)
  | some aead =>
    match aead src packetNumber associatedData with
    | .ok res => ({ h with receivedSecurePacket := true }, .ok (res, .secure))
    | .error err =>
      if h.receivedSecurePacket then (h, .error err)
      else (h, h.openNull src packetNumber associatedData)

structure CryptoSetupServer extends AEADs where
  receivedForwardSecurePacket : Bool

/-- `cryptoSetupServer.Open`.  A forward-secure AEAD that does not accept the
packet is passed over until it has accepted one. -/
def CryptoSetupServer.openMessage (h : CryptoSetupServer) (src : List UInt8)
    (packetNumber : ℕ) (associatedData : List UInt8) :
    CryptoSetupServer × Except String (List UInt8 × EncryptionLevel) :=
  let rest := h.toAEADs.openSecure src packetNumber associatedData
  match h.forwardSecureAEAD with
  | none => ({ h with toAEADs := rest.1 }, rest.2)
  | some aead =>
    match aead src packetNumber associatedData with
    | .ok res =>
      ({ h with receivedForwardSecurePacket := true }, .ok (res, .forwardSecure))
    | .error err =>
      if h.receivedForwardSecurePacket then (h, .error err)
      else ({ h with toAEADs := rest.1 }, rest.2)

structure CryptoSetupClient extends AEADs

/-- `cryptoSetupClient.Open`.  Once there is a forward-secure AEAD, it is the only
one. -/
def CryptoSetupClient.openMessage (h : CryptoSetupClient) (src : List UInt8)
    (packetNumber : ℕ) (associatedData : List UInt8) :
    CryptoSetupClient × Except String (List UInt8 × EncryptionLevel) :=
  match h.forwardSecureAEAD with
  | some aead =>
    match aead src packetNumber associatedData with
    | .ok data => (h, .ok (data, .forwardSecure))
    | .error err => (h, .error err)
  | none =>
    let rest := h.toAEADs.openSecure src packetNumber associatedData
    (⟨rest.1⟩, rest.2)

/-- The two implementations of the interface `CryptoSetup`. -/
inductive CryptoSetup where
  | server (h : CryptoSetupServer)
  | client (h : CryptoSetupClient)

namespace CryptoSetup

/-- A new crypto setup; `isServer` decides which one. -/
def new (isServer : Bool) (nullAEAD : AEAD) : CryptoSetup :=
  let aeads : AEADs := ⟨nullAEAD, none, none, false⟩
  if isServer then .server ⟨aeads, false⟩ else .client ⟨aeads⟩

/-- `Open`, with the setup afterwards. -/
def openMessage (src : List UInt8) (packetNumber : ℕ) (associatedData : List UInt8) :
    CryptoSetup → CryptoSetup × Except String (List UInt8 × EncryptionLevel)
  | .server h =>
    let opened := h.openMessage src packetNumber associatedData
    (.server opened.1, opened.2)
  | .client h =>
    let opened := h.openMessage src packetNumber associatedData
    (.client opened.1, opened.2)

variable (h : CryptoSetup)

/-- The setup as the `quicAEAD` of a packet unpacker. -/
def quicAEAD : Open := fun src packetNumber associatedData =>
  (h.openMessage src packetNumber associatedData).2

/-- Change the AEADs. -/
def updateAEADs (f : AEADs → AEADs) : CryptoSetup → CryptoSetup
  | .server h => .server { h with toAEADs := f h.toAEADs }
  | .client h => .client ⟨f h.toAEADs⟩

variable (aead : AEAD)

/-- The handshake has derived the secure keys. -/
def installSecureAEAD : CryptoSetup :=
  h.updateAEADs fun aeads => { aeads with secureAEAD := some aead }

/-- The handshake has derived the forward-secure keys. -/
def installForwardSecureAEAD : CryptoSetup :=
  h.updateAEADs fun aeads => { aeads with forwardSecureAEAD := some aead }

end CryptoSetup

/-! ## Floors -/

/-- No packet is opened below this level from now on, as far as the secure and the
null AEAD are concerned. -/
def AEADs.floor : EncryptionLevel :=
  if h.receivedSecurePacket then .secure else .unencrypted

/-- The floor of a setup: no packet is opened below it from now on. -/
def CryptoSetup.floor : CryptoSetup → EncryptionLevel
  | .server h =>
    if h.receivedForwardSecurePacket then .forwardSecure else h.toAEADs.floor
  | .client h =>
    if h.forwardSecureAEAD.isSome then .forwardSecure else h.toAEADs.floor

/-- A flag is set only if its AEAD has been installed. -/
def AEADs.Consistent : Prop :=
  h.receivedSecurePacket = true → h.secureAEAD.isSome = true

/-- The flags of a setup are set only if their AEADs have been installed. -/
def CryptoSetup.Consistent : CryptoSetup → Prop
  | .server h =>
    h.toAEADs.Consistent ∧ (h.receivedForwardSecurePacket = true →
        h.forwardSecureAEAD.isSome = true)
  | .client h => h.toAEADs.Consistent

theorem rank_le_forwardSecure (level : EncryptionLevel) :
    level.rank ≤ EncryptionLevel.forwardSecure.rank := by
  cases level <;> decide

/-- One `Open` from floor `before` to floor `after`: the floor does not sink, and
an opened packet raises it to its own level, which is not below the old floor. -/
structure Raises (before after : EncryptionLevel)
    (opened : Except String (List UInt8 × EncryptionLevel)) : Prop where
  floor_le : before.rank ≤ after.rank
  level_ge : ∀ data level, opened = .ok (data, level) → before.rank ≤ level.rank
  level_le : ∀ data level, opened = .ok (data, level) → level.rank ≤ after.rank

theorem Raises.of_error (floor : EncryptionLevel) (err : String) :
    Raises floor floor (.error err) :=
  ⟨le_rfl, by simp, by simp⟩

theorem Raises.of_ok {before after : EncryptionLevel} (h : before.rank ≤ after.rank)
    (data : List UInt8) : Raises before after (.ok (data, after)) := by
  refine ⟨h, ?_, ?_⟩
  · rintro _ _ ⟨⟩
    exact h
  · rintro _ _ ⟨⟩
    exact le_rfl

theorem AEADs.raises_openNull {h : AEADs} (hfloor : h.floor = .unencrypted)
    (src : List UInt8) (packetNumber : ℕ) (associatedData : List UInt8) :
    Raises h.floor h.floor (h.openNull src packetNumber associatedData) := by
  rw [hfloor, AEADs.openNull]
  cases h.nullAEAD src packetNumber associatedData with
  | ok res => exact Raises.of_ok le_rfl res
  | error err => exact Raises.of_error _ err

theorem AEADs.raises_openSecure {h : AEADs} (hcons : h.Consistent)
    (src : List UInt8) (packetNumber : ℕ) (associatedData : List UInt8) :
    let opened := h.openSecure src packetNumber associatedData
    Raises h.floor opened.1.floor opened.2 ∧ opened.1.Consistent ∧
      opened.1.forwardSecureAEAD = h.forwardSecureAEAD := by
  have hnull : h.receivedSecurePacket = false →
      Raises h.floor h.floor (h.openNull src packetNumber associatedData) := by
    intro hflag
    apply AEADs.raises_openNull
    simp [AEADs.floor, hflag]
  unfold AEADs.openSecure
  cases haead : h.secureAEAD with
  | none =>
    refine ⟨hnull ?_, hcons, rfl⟩
    by_contra hflag
    have := hcons (by simpa using hflag)
    simp [haead] at this
  | some aead =>
    dsimp only
    cases aead src packetNumber associatedData with
    | ok res =>
      refine ⟨?_, fun _ => by simp, rfl⟩
      have hle : h.floor.rank ≤ EncryptionLevel.secure.rank := by
        unfold AEADs.floor
        split_ifs <;> decide
      exact Raises.of_ok hle res
    | error err =>
      split_ifs with hflag
      · exact ⟨Raises.of_error _ err, hcons, rfl⟩
      · exact ⟨hnull (by simpa using hflag), hcons, rfl⟩

theorem CryptoSetupServer.raises_openMessage {h : CryptoSetupServer}
    (hcons : (CryptoSetup.server h).Consistent) (src : List UInt8)
    (packetNumber : ℕ) (associatedData : List UInt8) :
    let opened := h.openMessage src packetNumber associatedData
    Raises (CryptoSetup.server h).floor (CryptoSetup.server opened.1).floor opened.2 ∧
      (CryptoSetup.server opened.1).Consistent := by
  obtain ⟨hraises, hcons', hforward⟩ :=
    AEADs.raises_openSecure hcons.1 src packetNumber associatedData
  unfold CryptoSetupServer.openMessage
  cases haead : h.forwardSecureAEAD with
  | none =>
    have hflag : ¬h.receivedForwardSecurePacket = true := by
      intro hflag
      have := hcons.2 hflag
      simp [haead] at this
    simp only [CryptoSetup.floor, if_neg hflag]
    exact ⟨hraises, hcons', fun h => absurd h hflag⟩
  | some aead =>
    dsimp only
    cases aead src packetNumber associatedData with
    | ok res =>
      refine ⟨?_, hcons.1, fun _ => by simp [haead]⟩
      exact Raises.of_ok (rank_le_forwardSecure _) res
    | error err =>
      split_ifs with hflag
      · exact ⟨Raises.of_error _ err, hcons⟩
      · simp only [CryptoSetup.floor, if_neg hflag]
        exact ⟨hraises, hcons', fun h => absurd h hflag⟩

theorem CryptoSetupClient.raises_openMessage {h : CryptoSetupClient}
    (hcons : (CryptoSetup.client h).Consistent) (src : List UInt8)
    (packetNumber : ℕ) (associatedData : List UInt8) :
    let opened := h.openMessage src packetNumber associatedData
    Raises (CryptoSetup.client h).floor (CryptoSetup.client opened.1).floor opened.2 ∧
      (CryptoSetup.client opened.1).Consistent := by
  obtain ⟨hraises, hcons', hforward⟩ :=
    AEADs.raises_openSecure hcons src packetNumber associatedData
  unfold CryptoSetupClient.openMessage
  cases haead : h.forwardSecureAEAD with
  | none =>
    refine ⟨?_, hcons'⟩
    simpa [CryptoSetup.floor, haead, hforward] using hraises
  | some aead =>
    dsimp only
    have hfloor : (CryptoSetup.client h).floor = .forwardSecure := by
      simp [CryptoSetup.floor, haead]
    cases aead src packetNumber associatedData with
    | ok data =>
      rw [hfloor]
      exact ⟨Raises.of_ok le_rfl data, hcons⟩
    | error err => exact ⟨Raises.of_error _ err, hcons⟩

namespace CryptoSetup

variable {h : CryptoSetup}

/-- One `Open`: the floor does not sink, and it separates the packets opened
before from those opened afterwards. -/
theorem raises_openMessage (hcons : h.Consistent) (src : List UInt8)
    (packetNumber : ℕ) (associatedData : List UInt8) :
    let opened := h.openMessage src packetNumber associatedData
    Raises h.floor opened.1.floor opened.2 ∧ opened.1.Consistent := by
  cases h with
  | server => exact CryptoSetupServer.raises_openMessage hcons _ _ _
  | client => exact CryptoSetupClient.raises_openMessage hcons _ _ _

variable {aead : AEAD}

theorem floor_le_installSecureAEAD : h.floor.rank ≤ (h.installSecureAEAD aead).floor.rank := by
  cases h <;> exact le_rfl

theorem consistent_installSecureAEAD (hcons : h.Consistent) :
    (h.installSecureAEAD aead).Consistent := by
  cases h with
  | server => exact ⟨fun _ => rfl, hcons.2⟩
  | client => exact fun _ => rfl

theorem floor_le_installForwardSecureAEAD :
    h.floor.rank ≤ (h.installForwardSecureAEAD aead).floor.rank := by
  cases h with
  | server => exact le_rfl
  | client => exact rank_le_forwardSecure _

theorem consistent_installForwardSecureAEAD (hcons : h.Consistent) :
    (h.installForwardSecureAEAD aead).Consistent := by
  cases h with
  | server => exact ⟨hcons.1, fun _ => rfl⟩
  | client => exact hcons

theorem consistent_new (isServer : Bool) (nullAEAD : AEAD) :
    (new isServer nullAEAD).Consistent := by
  cases isServer with
  | false => exact fun h => Bool.noConfusion h
  | true => exact ⟨fun h => Bool.noConfusion h, fun h => Bool.noConfusion h⟩

end CryptoSetup

/-! ## Unpacking -/

/-- A packet as it is handed to `Unpack`. -/
structure ArrivedPacket where
  version : ℤ
  publicHeaderBinary : List UInt8
  packetNumber : ℕ
  packetNumberLen : ℕ
  data : List UInt8

def CryptoSetup.unpack (h : CryptoSetup) (p : ArrivedPacket) :
    Except ParseError (List Frame × EncryptionLevel) :=
  Wire.unpack h.quicAEAD p.version p.publicHeaderBinary p.packetNumber p.packetNumberLen p.data

/-- A packet that has been opened, and what unpacking it gave. -/
structure OpenedPacket where
  level : EncryptionLevel
  unpacked : Except ParseError (List Frame × EncryptionLevel)

/-- A crypto setup with the packets opened so far, oldest first. -/
structure Opener where
  setup : CryptoSetup
  opened : List OpenedPacket

/-- What can happen to a crypto setup. -/
inductive Event where
  | installSecureAEAD (aead : AEAD)
  | installForwardSecureAEAD (aead : AEAD)
  | unpack (p : ArrivedPacket)

namespace Opener

/-- The setup after one event. -/
def step (s : Opener) : Event → Opener
  | .installSecureAEAD aead =>
    { s with setup := s.setup.installSecureAEAD aead }
  | .installForwardSecureAEAD aead =>
    { s with setup := s.setup.installForwardSecureAEAD aead }
  | .unpack p =>
    let result := s.setup.openMessage p.data p.packetNumber p.publicHeaderBinary
    { setup := result.1
      opened :=
        match result.2 with
        | .ok (_, level) => s.opened ++ [⟨level, s.setup.unpack p⟩]
        | .error _ => s.opened }

def new (isServer : Bool) (nullAEAD : AEAD) : Opener := ⟨.new isServer nullAEAD, []⟩

/-- The packets opened so far are in the order of their levels and none is above
the floor. -/
structure Ordered (s : Opener) : Prop where
  consistent : s.setup.Consistent
  pairwise : s.opened.Pairwise fun p q => p.level.rank ≤ q.level.rank
  le_floor : ∀ p ∈ s.opened, p.level.rank ≤ s.setup.floor.rank

theorem ordered_new (isServer : Bool) (nullAEAD : AEAD) : (new isServer nullAEAD).Ordered :=
  ⟨CryptoSetup.consistent_new isServer nullAEAD, .nil, by simp [new]⟩

theorem Ordered.raise {s : Opener} (hs : s.Ordered) {setup : CryptoSetup} (hcons : setup.Consistent)
    (hfloor : s.setup.floor.rank ≤ setup.floor.rank) : Ordered { s with setup := setup } :=
  ⟨hcons, hs.pairwise, fun p hp => (hs.le_floor p hp).trans hfloor⟩

theorem Ordered.step {s : Opener} (hs : s.Ordered) (e : Event) : (s.step e).Ordered := by
  cases e with
  | installSecureAEAD aead =>
    exact hs.raise (CryptoSetup.consistent_installSecureAEAD hs.consistent)
      (CryptoSetup.floor_le_installSecureAEAD)
  | installForwardSecureAEAD aead =>
    exact hs.raise (CryptoSetup.consistent_installForwardSecureAEAD hs.consistent)
      (CryptoSetup.floor_le_installForwardSecureAEAD)
  | unpack p =>
    obtain ⟨hraises, hcons⟩ := CryptoSetup.raises_openMessage hs.consistent
      p.data p.packetNumber p.publicHeaderBinary
    have hkept := hs.raise hcons hraises.floor_le
    unfold Opener.step
    dsimp only
    split
    next data level hok =>
      refine ⟨hcons, pairwise_append.mpr ⟨hs.pairwise, by simp, ?_⟩, ?_⟩
      · intro q hq r hr
        obtain rfl := mem_singleton.mp hr
        exact (hs.le_floor q hq).trans (hraises.level_ge data level hok)
      · intro q hq
        rcases mem_append.mp hq with hq | hq
        · exact hkept.le_floor q hq
        · obtain rfl := mem_singleton.mp hq
          exact hraises.level_le data level hok
    next err herr => exact hkept

/-- What unpacking returned belongs to the level at which the packet was opened,
and only the crypto stream was received unencrypted. -/
def Sound (s : Opener) : Prop :=
  ∀ p ∈ s.opened, ∀ frames level, p.unpacked = .ok (frames, level) → level = p.level ∧
      ∀ f, Frame.stream f ∈ frames → f.streamID ≠ 1 → EncryptionLevel.secure.rank ≤ p.level.rank

/-- `Unpack` opens the packet once, at the level that it reports. -/
theorem unpack_level {h : CryptoSetup} {p : ArrivedPacket}
    {data : List UInt8} {opened level : EncryptionLevel} {frames : List Frame}
    (hopened : h.quicAEAD p.data p.packetNumber p.publicHeaderBinary = .ok (data, opened))
    (hunpack : h.unpack p = .ok (frames, level)) :
    level = opened ∧ ∀ f, Frame.stream f ∈ frames → f.streamID ≠ 1 →
        EncryptionLevel.secure.rank ≤ opened.rank := by
  obtain ⟨decrypted, s', haead, hframes⟩ := unpack_ok hunpack
  rw [hopened] at haead
  cases haead
  refine ⟨rfl, fun f hf hid => ?_⟩
  exact ((unpackFrames_ok le_rfl hframes).2 _ hf).2 hid

theorem Sound.step {s : Opener} (hs : s.Sound) (e : Event) : (s.step e).Sound := by
  cases e with
  | installSecureAEAD | installForwardSecureAEAD => exact hs
  | unpack p =>
    unfold Opener.step
    dsimp only
    split
    next data level hok =>
      intro q hq frames reported hunpack
      rcases mem_append.mp hq with hq | hq
      · exact hs q hq frames reported hunpack
      · obtain rfl := mem_singleton.mp hq
        exact unpack_level hok hunpack
    next err herr => exact hs

/-- In every run of a session the levels of the opened packets never decrease, and
a STREAM frame other than the crypto stream's is returned only from a packet
opened at the level secure or above. -/
theorem run_never_downgrades (isServer : Bool) (nullAEAD : AEAD) (events : List Event) :
    let s := run step (new isServer nullAEAD) events
    (s.opened.Pairwise fun p q => p.level.rank ≤ q.level.rank) ∧
      ∀ p ∈ s.opened, ∀ frames level, p.unpacked = .ok (frames, level) → level = p.level ∧
          ∀ f, Frame.stream f ∈ frames → f.streamID ≠ 1 →
            EncryptionLevel.secure.rank ≤ p.level.rank := by
  have hordered : (run step (new isServer nullAEAD) events).Ordered :=
    run_invariant (P := fun _ _ => True) (fun _ e hs _ => hs.step e)
      (ordered_new isServer nullAEAD) (allSteps_of_forall fun _ _ => trivial)
  have hsound : (run step (new isServer nullAEAD) events).Sound :=
    run_invariant (P := fun _ _ => True) (fun _ e hs _ => hs.step e)
      (by simp [Sound, new]) (allSteps_of_forall fun _ _ => trivial)
  exact ⟨hordered.pairwise, hsound⟩

end Opener

end Pstream.Handshake
