import Mathlib.Algebra.Order.Ring.Int

/-!
# Protocol-level types and constants

The numeric types of `internal/protocol`.  Packet numbers, byte counts and
stream IDs, unsigned integers in the source, are natural numbers here; wherever
the source can wrap around, the operation that wraps says so explicitly.
-/

namespace Pstream

abbrev PathID := UInt8

/-- `protocol.InitialPathID`. -/
def initialPathID : PathID := 0

/-- `protocol.MaxByteCount`, the largest unsigned 64-bit value. -/
def maxByteCount : ℕ := 2 ^ 64 - 1

/-- Addition of unsigned 64-bit integers. -/
def addByteCount (a b : ℕ) : ℕ := (a + b) % 2 ^ 64

/-- Subtraction of unsigned 64-bit integers. -/
def subByteCount (a b : ℕ) : ℕ := (a + 2 ^ 64 - b) % 2 ^ 64

theorem addByteCount_of_lt {a b : ℕ} (h : a + b < 2 ^ 64) : addByteCount a b = a + b :=
  Nat.mod_eq_of_lt h

theorem subByteCount_of_le {a b : ℕ} (h : b ≤ a) (ha : a < 2 ^ 64) : subByteCount a b = a - b := by
  unfold subByteCount
  omega

/-- `protocol.MaxPacketSize`. -/
def maxPacketSize : ℕ := 1350

/-- `protocol.DefaultMaxCongestionWindow`. -/
def defaultMaxCongestionWindow : ℕ := 2500

/-- `protocol.NonForwardSecurePacketSizeReduction`. -/
def nonForwardSecurePacketSizeReduction : ℕ := 50

/-- `protocol.Version39`. -/
def version39 : ℤ := 39

/-- `protocol.VersionMP`. -/
def versionMP : ℤ := 512

/-- `protocol.VersionUnknown`. -/
def versionUnknown : ℤ := -2

/-- `protocol.MaxTrackedSentPackets`. -/
def maxTrackedSentPackets : ℕ := 2 * defaultMaxCongestionWindow

/-- `protocol.MaxTrackedReceivedAckRanges`. -/
def maxTrackedReceivedAckRanges : ℕ := defaultMaxCongestionWindow

/-- `protocol.MaxPacketsReceivedBeforeAckSend`. -/
def maxPacketsReceivedBeforeAckSend : ℕ := 20

/-- `protocol.RetransmittablePacketsBeforeAck`. -/
def retransmittablePacketsBeforeAck : ℕ := 2

/-- `protocol.MaxTrackedSkippedPackets`. -/
def maxTrackedSkippedPackets : ℕ := 10

/-- `protocol.MaxStreamFrameSorterGaps`. -/
def maxStreamFrameSorterGaps : ℕ := 2500

/-- `protocol.SkipPacketAveragePeriodLength`. -/
def skipPacketAveragePeriodLength : ℕ := 500

/-- `protocol.MaxNewStreamIDDelta`. -/
def maxNewStreamIDDelta : ℕ := 4 * 100

inductive Perspective where
  | server
  | client
deriving DecidableEq, Repr

/-- `protocol.EncryptionLevel`, in the order of the source's constants. -/
inductive EncryptionLevel where
  | unspecified
  | unencrypted
  | secure
  | forwardSecure
deriving DecidableEq, Repr

/-- The number of the constant in the source. -/
def EncryptionLevel.rank : EncryptionLevel → ℕ
  | .unspecified => 0
  | .unencrypted => 1
  | .secure => 2
  | .forwardSecure => 3

end Pstream
