import Pstream.Wire.MinLength

/-!
# Public headers

The header of a packet and its length.
-/

namespace Pstream.Wire

structure PublicHeader where
  connectionID : ℕ
  pathID : PathID
  versionFlag : Bool
  resetFlag : Bool
  truncateConnectionID : Bool
  multipathFlag : Bool
  packetNumberLen : ℕ
  packetNumber : ℕ
  versionNumber : ℤ
  diversificationNonce : List UInt8
deriving DecidableEq, Repr

/-- `protocol.GetPacketNumberLengthForPublicHeader`. -/
def getPacketNumberLengthForPublicHeader (packetNumber leastUnacked : ℕ) : ℕ :=
  let diff := subByteCount packetNumber leastUnacked
  if diff < 2 ^ 15 then 2 else if diff < 2 ^ 31 then 4 else 6

namespace PublicHeader

def hasPacketNumber (h : PublicHeader) (packetSentBy : Perspective) : Bool :=
  if h.resetFlag then false
  else if h.versionFlag ∧ packetSentBy = .server then false
  else true

def getLength (h : PublicHeader) (pers : Perspective) : Except WireError ℕ :=
  if h.versionFlag ∧ h.resetFlag then .error .resetAndVersionFlagSet
  else if h.versionFlag ∧ pers = .server then
    .error .getLengthNotForVersionNegotiation
  else if h.hasPacketNumber pers ∧ h.packetNumberLen ∉ [1, 2, 4, 6] then
    .error .packetNumberLenNotSet
  else
    .ok (1 + (if h.hasPacketNumber pers then h.packetNumberLen else 0) +
      (if h.truncateConnectionID then 0 else 8) +
      (if h.versionFlag then 4 else 0) +
      h.diversificationNonce.length +
      if h.multipathFlag then 1 else 0)

theorem getLength_pos {h : PublicHeader} {pers : Perspective} {n : ℕ}
    (hn : h.getLength pers = .ok n) : 0 < n := by
  unfold getLength at hn
  split_ifs at hn
  all_goals
    cases hn
    omega

end PublicHeader

end Pstream.Wire
