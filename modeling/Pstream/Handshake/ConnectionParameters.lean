import Pstream.FlowControl.ReceiveWindow
import Pstream.Handshake.HandshakeMessage

/-!
# Negotiation of the connection parameters

The client sends its parameters in its hello, the server takes them into account
and sends its own ones back.  The idle timeout travels in whole seconds, and each
side takes the smaller one of what it receives and what it has.  The windows for
sending are the windows for receiving of the other side.
-/

namespace Pstream.Handshake

open Support Support.Reader TagMap

/-! ## The manager of the connection parameters -/

def tagTCID : Tag := 0x44494354
def tagMSPC : Tag := 0x4350534d
def tagMIDS : Tag := 0x5344494d
def tagICSL : Tag := 0x4c534349
def tagSFCW : Tag := 0x57434653
def tagCFCW : Tag := 0x57434643

def maxStreamsPerConnection : ℕ := 100
def maxIncomingDynamicStreamsPerConnection : ℕ := 100

/-- In nanoseconds. -/
def second : ℤ := 1000000000

inductive ParametersError
  | malformedTag
  | flowControlRenegotiationNotSupported
deriving DecidableEq, Repr

structure ConnectionParametersManager where
  perspective : Perspective
  flowControlNegotiated : Bool
  truncateConnectionID : Bool
  maxStreamsPerConnection : ℕ
  maxIncomingDynamicStreamsPerConnection : ℕ
  idleConnectionStateLifetime : ℤ
  windows : FlowControl.ConnectionParameters
deriving DecidableEq, Repr

def newConnectionParamatersManager (perspective : Perspective)
    (config : FlowControl.Config) (idleTimeout : ℤ) :
    ConnectionParametersManager where
  perspective := perspective
  flowControlNegotiated := false
  truncateConnectionID := false
  maxStreamsPerConnection := Handshake.maxStreamsPerConnection
  maxIncomingDynamicStreamsPerConnection := Handshake.maxStreamsPerConnection
  idleConnectionStateLifetime := idleTimeout
  windows := FlowControl.newConnectionParamatersManager config

/-- A method of the manager.  An error leaves the parameters that have been set
before it. -/
abbrev ParametersM := EStateM ParametersError ConnectionParametersManager

namespace ConnectionParametersManager

/-- `ReadUint32` of the value of a tag. -/
def readParameter (value : List UInt8) : ParametersM ℕ :=
  match Reader.uint .littleEndian () 4 value with
  | .ok v _ => pure v
  | .error _ _ => throw .malformedTag

variable (params : TagMap) (t : Tag)

/-- Set a parameter from the value of a tag, if the tag is there. -/
def setFromTag (set : ℕ → ConnectionParametersManager → ConnectionParametersManager) :
    ParametersM Unit :=
  match params.lookup t with
  | none => pure ()
  | some value => do
      let v ← readParameter value
      modify (set v)

/-- The windows are negotiated only once. -/
def checkRenegotiation : ParametersM Unit := do
  let h ← get
  if (params.lookup t).isSome ∧ h.flowControlNegotiated then
    throw .flowControlRenegotiationNotSupported
  else pure ()

/-- Only a client asks for truncated connection IDs. -/
def setTruncation : ParametersM Unit := do
  let h ← get
  if h.perspective = .server then
    setFromTag params tagTCID fun v h =>
      { h with truncateConnectionID := v = 0 }
  else pure ()

def setFromMap : ParametersM Unit := do
  setTruncation params
  setFromTag params tagMSPC fun v h =>
    { h with
      maxStreamsPerConnection := min v Handshake.maxStreamsPerConnection }
  setFromTag params tagMIDS fun v h =>
    { h with
      maxIncomingDynamicStreamsPerConnection :=
        min v Handshake.maxIncomingDynamicStreamsPerConnection }
  setFromTag params tagICSL fun v h =>
    { h with
      idleConnectionStateLifetime := min (v * second) h.idleConnectionStateLifetime }
  checkRenegotiation params tagSFCW
  setFromTag params tagSFCW fun v h =>
    { h with windows := { h.windows with sendStreamFlowControlWindow := v } }
  checkRenegotiation params tagCFCW
  setFromTag params tagCFCW fun v h =>
    { h with windows := { h.windows with
      sendConnectionFlowControlWindow := v } }
  if (params.lookup tagCFCW).isSome ∨ (params.lookup tagSFCW).isSome then
    modify fun h => { h with flowControlNegotiated := true }
  else pure ()

/-- `WriteUint32` of a value that is converted to 32 bits. -/
def writeParameter (v : ℤ) : List UInt8 := ByteOrder.littleEndian.bytes 4 (v % 2 ^ 32).toNat

/-- The values for the hello; a duration is divided towards zero. -/
def getHelloMap (h : ConnectionParametersManager) : TagMap :=
  TagMap.set ∅ tagICSL (writeParameter (h.idleConnectionStateLifetime.tdiv second))
    |>.set tagMSPC (writeParameter h.maxStreamsPerConnection)
    |>.set tagMIDS (writeParameter Handshake.maxIncomingDynamicStreamsPerConnection)
    |>.set tagCFCW (writeParameter h.windows.receiveConnectionFlowControlWindow)
    |>.set tagSFCW (writeParameter h.windows.receiveStreamFlowControlWindow)

/-! ## Reading a hello -/

variable {h : ConnectionParametersManager}

theorem readParameter_write (v : ℤ) :
    readParameter (writeParameter v) h = .ok (v % 2 ^ 32).toNat h := by
  have hlt : (v % 2 ^ 32).toNat < 256 ^ 4 := by omega
  have hread := decodes_uint .littleEndian () hlt []
  rw [Decodes, List.append_nil] at hread
  unfold readParameter writeParameter
  rw [hread]
  rfl

variable {params : TagMap}

theorem setFromTag_of_none {t : Tag} (ht : params.lookup t = none)
    (set : ℕ → ConnectionParametersManager → ConnectionParametersManager) :
    setFromTag params t set h = .ok () h := by
  rw [setFromTag, ht]
  rfl

theorem setFromTag_of_some {t : Tag} {v : ℤ} (ht : params.lookup t = some (writeParameter v))
    (set : ℕ → ConnectionParametersManager → ConnectionParametersManager) :
    setFromTag params t set h = .ok () (set (v % 2 ^ 32).toNat h) := by
  rw [setFromTag, ht]
  exact bind_of_ok (readParameter_write v)

theorem setTruncation_of_none (ht : params.lookup tagTCID = none) :
    setTruncation params h = .ok () h := by
  rw [setTruncation, get_bind]
  split_ifs
  · exact setFromTag_of_none ht _
  · rfl

theorem checkRenegotiation_of_first {h : ConnectionParametersManager}
    (hfirst : h.flowControlNegotiated = false) (t : Tag) :
    checkRenegotiation params t h = .ok () h := by
  rw [checkRenegotiation, get_bind, if_neg (by simp [hfirst])]
  rfl

/-- A timeout as the other side reads it: whole seconds, in 32 bits. -/
def onWire (timeout : ℤ) : ℤ := timeout.tdiv second % 2 ^ 32 * second

/-- The parameters of `h'` after it has received the hello of `h`. -/
def afterHello (h h' : ConnectionParametersManager) :
    ConnectionParametersManager :=
  { h' with
    flowControlNegotiated := true
    maxStreamsPerConnection := min ((h.maxStreamsPerConnection : ℤ) % 2 ^ 32).toNat
      Handshake.maxStreamsPerConnection
    maxIncomingDynamicStreamsPerConnection := Handshake.maxIncomingDynamicStreamsPerConnection
    idleConnectionStateLifetime := min (onWire h.idleConnectionStateLifetime)
      h'.idleConnectionStateLifetime
    windows := { h'.windows with
      sendStreamFlowControlWindow := ((h.windows.receiveStreamFlowControlWindow : ℤ) % 2 ^ 32).toNat
      sendConnectionFlowControlWindow :=
        ((h.windows.receiveConnectionFlowControlWindow : ℤ) % 2 ^ 32).toNat } }

theorem setFromMap_getHelloMap {h' : ConnectionParametersManager}
    (hfirst : h'.flowControlNegotiated = false) :
    setFromMap h.getHelloMap h' = .ok () (h.afterHello h') := by
  have hTCID : h.getHelloMap.lookup tagTCID = none := by
    simp [getHelloMap, lookup_set, tagTCID, tagICSL, tagMSPC, tagMIDS, tagCFCW, tagSFCW]
  have hMSPC : h.getHelloMap.lookup tagMSPC = some (writeParameter h.maxStreamsPerConnection) := by
    simp [getHelloMap, lookup_set, tagMSPC, tagMIDS, tagCFCW, tagSFCW]
  have hMIDS : h.getHelloMap.lookup tagMIDS = some
      (writeParameter Handshake.maxIncomingDynamicStreamsPerConnection) := by
    simp [getHelloMap, lookup_set, tagMIDS, tagCFCW, tagSFCW]
  have hICSL : h.getHelloMap.lookup tagICSL = some
      (writeParameter (h.idleConnectionStateLifetime.tdiv second)) := by
    simp [getHelloMap, lookup_set, tagICSL, tagMSPC, tagMIDS, tagCFCW, tagSFCW]
  have hSFCW : h.getHelloMap.lookup tagSFCW = some
      (writeParameter h.windows.receiveStreamFlowControlWindow) := by
    simp [getHelloMap, lookup_set]
  have hCFCW : h.getHelloMap.lookup tagCFCW = some
      (writeParameter h.windows.receiveConnectionFlowControlWindow) := by
    simp [getHelloMap, lookup_set, tagCFCW, tagSFCW]
  refine (bind_of_ok (setTruncation_of_none hTCID)).trans ?_
  refine (bind_of_ok (setFromTag_of_some hMSPC _)).trans ?_
  refine (bind_of_ok (setFromTag_of_some hMIDS _)).trans ?_
  refine (bind_of_ok (setFromTag_of_some hICSL _)).trans ?_
  refine (bind_of_ok (checkRenegotiation_of_first ?_ _)).trans ?_
  · exact hfirst
  refine (bind_of_ok (setFromTag_of_some hSFCW _)).trans ?_
  refine (bind_of_ok (checkRenegotiation_of_first ?_ _)).trans ?_
  · exact hfirst
  refine (bind_of_ok (setFromTag_of_some hCFCW _)).trans ?_
  have hseconds : (((h.idleConnectionStateLifetime.tdiv second % 2 ^ 32).toNat :
      ℕ) : ℤ) = h.idleConnectionStateLifetime.tdiv second % 2 ^ 32 :=
    Int.toNat_of_nonneg (Int.emod_nonneg _ (by decide))
  rw [afterHello, onWire, ← hseconds]
  rfl

/-! ## Both sides -/

/-- Both sides hold the same timeout, which is at most both configured ones, and
the windows for sending are the other side's windows for receiving. -/
structure Agree (clientTimeout serverTimeout : ℤ)
    (client server : ConnectionParametersManager) : Prop where
  same : client.idleConnectionStateLifetime = server.idleConnectionStateLifetime
  le_client : client.idleConnectionStateLifetime ≤ clientTimeout
  le_server : client.idleConnectionStateLifetime ≤ serverTimeout
  clientStream : client.windows.sendStreamFlowControlWindow =
    server.windows.receiveStreamFlowControlWindow
  clientConnection : client.windows.sendConnectionFlowControlWindow =
    server.windows.receiveConnectionFlowControlWindow
  serverStream : server.windows.sendStreamFlowControlWindow =
    client.windows.receiveStreamFlowControlWindow
  serverConnection : server.windows.sendConnectionFlowControlWindow =
    client.windows.receiveConnectionFlowControlWindow

/-- The timeouts survive the exchange: the server's one is in whole seconds or at
least what the client announces.  Negative timeouts only do if they are equal. -/
def Compatible (clientTimeout serverTimeout : ℤ) : Prop :=
  0 ≤ clientTimeout ∧ 0 ≤ serverTimeout ∧
      (clientTimeout / second % 2 ^ 32 * second ≤ serverTimeout ∨ second ∣ serverTimeout) ∨
    clientTimeout < 0 ∧ serverTimeout = clientTimeout

theorem onWire_nonneg (timeout : ℤ) : 0 ≤ onWire timeout := by
  unfold onWire second
  omega

theorem onWire_of_nonneg {timeout : ℤ} (h : 0 ≤ timeout) :
    onWire timeout = timeout / second % 2 ^ 32 * second := by
  rw [onWire, Int.tdiv_eq_ediv_of_nonneg h]

theorem onWire_le {timeout : ℤ} (h : 0 ≤ timeout) : onWire timeout ≤ timeout := by
  rw [onWire_of_nonneg h, second]
  omega

theorem onWire_onWire (timeout : ℤ) : onWire (onWire timeout) = onWire timeout := by
  rw [onWire_of_nonneg (onWire_nonneg timeout), onWire, second]
  omega

/-- What is below a transmitted value arrives unchanged exactly if it is in whole
seconds. -/
theorem onWire_eq_self_iff {c s : ℤ} (hlt : s < onWire c) : onWire s = s ↔ 0 ≤ s ∧ second ∣ s := by
  constructor
  · intro heq
    have hnonneg : 0 ≤ s := heq ▸ onWire_nonneg s
    refine ⟨hnonneg, ?_⟩
    rw [← heq]
    exact Int.dvd_mul_left _ _
  · rintro ⟨hnonneg, k, rfl⟩
    rw [onWire_of_nonneg hnonneg]
    unfold onWire second at *
    omega

/-- When the client ends up with the timeout of the server, and the server with
one that is not above the client's. -/
theorem timeouts_iff (c s : ℤ) : (min (onWire (min (onWire c) s)) c = min (onWire c) s ∧
        min (onWire c) s ≤ c) ↔ Compatible c s := by
  have hc := onWire_nonneg c
  have hs := onWire_nonneg s
  unfold Compatible
  rcases lt_or_ge c 0 with hneg | hnonneg
  · -- a negative timeout is never announced
    constructor
    · rintro ⟨hsame, hle⟩
      have hmin : min (onWire c) s = s := by omega
      rw [hmin] at hsame
      omega
    · rintro (⟨hnonneg, -⟩ | ⟨-, rfl⟩)
      · omega
      · have hmin : min (onWire s) s = s := by omega
        rw [hmin, hmin]
        exact ⟨rfl, le_rfl⟩
  · have hle := onWire_le hnonneg
    rw [← onWire_of_nonneg hnonneg]
    rcases le_or_gt (onWire c) s with hcs | hsc
    · rw [min_eq_left hcs, onWire_onWire, min_eq_left hle]
      exact iff_of_true ⟨rfl, hle⟩ (.inl ⟨hnonneg, hc.trans hcs, .inl hcs⟩)
    · have hself := onWire_eq_self_iff hsc
      rw [min_eq_right hsc.le]
      constructor
      · rintro ⟨hsame, -⟩
        obtain ⟨hs, hdvd⟩ := hself.mp (by omega)
        exact .inl ⟨hnonneg, hs, .inr hdvd⟩
      · rintro (⟨-, hs, hcs | hdvd⟩ | ⟨hneg, -⟩)
        · omega
        · have heq := hself.mpr ⟨hs, hdvd⟩
          omega
        · omega

/-- Both hellos are accepted, and the two sides agree exactly if their timeouts are
compatible. -/
theorem negotiation_agrees_iff (clientConfig serverConfig : FlowControl.Config)
    (clientTimeout serverTimeout : ℤ) :
    let client := newConnectionParamatersManager .client clientConfig clientTimeout
    let server := newConnectionParamatersManager .server serverConfig serverTimeout
    ∃ server' client', setFromMap client.getHelloMap server = .ok () server' ∧
      setFromMap server'.getHelloMap client = .ok () client' ∧
      (Agree clientTimeout serverTimeout client' server' ↔
        Compatible clientTimeout serverTimeout) := by
  intro client server
  refine ⟨client.afterHello server, (client.afterHello server).afterHello client,
    setFromMap_getHelloMap rfl, setFromMap_getHelloMap rfl, ?_⟩
  rw [← timeouts_iff]
  constructor
  · intro h
    exact ⟨h.same, h.same.symm.trans_le h.le_client⟩
  · rintro ⟨hsame, hle⟩
    exact ⟨hsame, hsame.trans_le hle, hsame.trans_le (min_le_right _ _), rfl, rfl, rfl, rfl⟩

/-- The server's timeout of 1.5 seconds is announced as one second. -/
theorem fractionalTimeout_disagrees :
    let client := newConnectionParamatersManager .client ⟨0, 0⟩ (30 * second)
    let server := newConnectionParamatersManager .server ⟨0, 0⟩ 1500000000
    ∃ server' client', setFromMap client.getHelloMap server = .ok () server' ∧
      setFromMap server'.getHelloMap client = .ok () client' ∧
      server'.idleConnectionStateLifetime = 1500000000 ∧
      client'.idleConnectionStateLifetime = 1000000000 := by
  intro client server
  exact ⟨client.afterHello server, (client.afterHello server).afterHello client,
    setFromMap_getHelloMap rfl, setFromMap_getHelloMap rfl, by decide,
    by decide⟩

end ConnectionParametersManager

end Pstream.Handshake
