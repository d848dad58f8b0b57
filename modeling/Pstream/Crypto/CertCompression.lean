import Pstream.Protocol
import Pstream.Support.Writer

/-!
# Compression of certificate chains

A certificate of the chain is sent as a reference to a certificate that the client
has cached, as a reference into a set of common certificates, or compressed with
zlib.  The sets of common certificates, the fixed part of the dictionary and zlib
itself are parameters.

The decompressed data are read through an `io.Reader`.  A single call of `Read`
may return less than there is room for, without an error, and it may or may not
report the end of the data together with the last bytes.
-/

namespace Pstream.Crypto

open Support Support.Reader

abbrev Cert := List UInt8

inductive Entry
  | compressed
  | cached (h : UInt64)
  | common (h : UInt64) (i : UInt32)
deriving DecidableEq, Repr

inductive CertError
  | hashesNotMultipleOf8
  | eof
  | unexpectedCachedCertificate
  | unknownCertSet
  | notFoundInCertSet
  | unknownEntryType
  /-- an error of `zlib.NewReaderDict` -/
  | zlib
  | noElementToSave
deriving DecidableEq, Repr

/-- What the compression of certificates depends on. -/
structure Codec where
  certSets : UInt64 → Option (List Cert)
  certDictZlib : List UInt8
  /-- what a zlib writer with a dictionary makes of all that is written to it -/
  compress : (dict data : List UInt8) → List UInt8
  /-- all that a zlib reader with a dictionary yields -/
  decompress : (dict data : List UInt8) → Option (List UInt8)

/-- A codec that does not compress, for examples. -/
def Codec.plain (certSets : UInt64 → Option (List Cert)) : Codec where
  certSets := certSets
  certDictZlib := []
  compress _ data := data
  decompress _ data := some data

/-! ## Entries -/

/-- The FNV-1a hash of a certificate. -/
def hashCert (cert : Cert) : UInt64 :=
  cert.foldl (fun h b => (h ^^^ b.toUInt64) * 1099511628211) 14695981039346656037

def splitHashes (hashes : List UInt8) : Except CertError (List UInt64) :=
  if hashes.length % 8 ≠ 0 then .error .hashesNotMultipleOf8
  else .ok ((List.range (hashes.length / 8)).map fun i =>
    UInt64.ofNat (ByteOrder.littleEndian.value ((hashes.drop (i * 8)).take 8)))

def findCertInSet (set : List Cert) (cert : Cert) : Option ℕ := set.findIdx? (· == cert)

namespace Codec

variable (c : Codec) (chain : List Cert) (cachedHashes setHashes : List UInt64) (cert : Cert)

/-- The first of the sets that is known and contains the certificate. -/
def findCommon : Option (UInt64 × ℕ) :=
  setHashes.findSome? fun setHash =>
    ((c.certSets setHash).bind fun set => findCertInSet set cert).map (setHash, ·)

/-- The entry for one certificate. -/
def buildEntry (chainHash : UInt64) : Entry :=
  if chainHash ∈ cachedHashes then .cached chainHash
  else
    match c.findCommon setHashes cert with
    | some (setHash, pos) => .common setHash (UInt32.ofNat pos)
    | none => .compressed

def buildEntries (chainHashes cachedHashes setHashes : List UInt64) : List Entry :=
  List.zipWith (c.buildEntry cachedHashes setHashes) chain chainHashes

/-- The dictionary starts with the certificates that are not compressed, in reverse
order. -/
def buildZlibDictForEntries (entries : List Entry) (chain : List Cert) : List UInt8 :=
  ((entries.zip chain).reverse.filter fun p => p.1 ≠ .compressed).flatMap (·.2) ++ c.certDictZlib

end Codec

/-! ## Compressing -/

def Entry.bytes : Entry → List UInt8
  | .compressed => [1]
  | .cached h => 2 :: ByteOrder.littleEndian.bytes 8 h.toNat
  | .common h i => 3 :: (ByteOrder.littleEndian.bytes 8 h.toNat ++
      ByteOrder.littleEndian.bytes 4 i.toNat)

def compressedCerts (entries : List Entry) (chain : List Cert) : List Cert :=
  ((entries.zip chain).filter fun p => p.1 = .compressed).map (·.2)

/-- A certificate with its length in front of it. -/
def certBytes (cert : Cert) : List UInt8 := ByteOrder.littleEndian.bytes 4 cert.length ++ cert

def totalUncompressedLen (certs : List Cert) : ℕ := (certs.map fun cert => 4 + cert.length).sum

def Codec.compressChain (c : Codec) (chain : List Cert)
    (pCommonSetHashes pCachedHashes : List UInt8) :
    Except CertError (List UInt8) := do
  let cachedHashes ← splitHashes pCachedHashes
  let setHashes ← splitHashes pCommonSetHashes
  let entries := c.buildEntries chain (chain.map hashCert) cachedHashes setHashes
  let certs := compressedCerts entries chain
  let res := entries.flatMap Entry.bytes ++ [0]
  if 0 < totalUncompressedLen certs then
    pure (res ++ ByteOrder.littleEndian.bytes 4 (totalUncompressedLen certs) ++
      c.compress (c.buildZlibDictForEntries entries chain) (certs.flatMap certBytes))
  else pure res

/-! ## The reader of the decompressed data -/

/-- How a reader behaves where its contract leaves it a choice. -/
structure ReadPlan where
  /-- the greatest number of bytes that each call returns -/
  size : ℕ → ℕ
  /-- the end of the data is reported together with the last bytes -/
  early : Bool

/-- The data that are left, and the number of calls of `Read` so far. -/
structure Stream where
  rest : List UInt8
  calls : ℕ

/-- A call of `Read` with a slice of `n` bytes: what has been read, and whether the
end of the data is reported. -/
def ReadPlan.read (p : ReadPlan) (n : ℕ) (st : Stream) : List UInt8 × Bool × Stream :=
  let m := min n (p.size st.calls)
  let rest := st.rest.drop m
  (st.rest.take m, n ≠ 0 ∧ (st.rest = [] ∨ p.early ∧ rest = []), ⟨rest, st.calls + 1⟩)

/-- The slice that has been read into; it consists of zeros before. -/
def filled (n : ℕ) (bytes : List UInt8) : List UInt8 := bytes ++ List.replicate (n - bytes.length) 0

/-- The part of the loop that reads one certificate. -/
def ReadPlan.readCert (p : ReadPlan) (st : Stream) : Except CertError (Cert × Stream) :=
  match p.read 4 st with
  | (_, true, _) => .error .eof
  | (lenBytes, false, st) =>
    let certLen := ByteOrder.littleEndian.value (filled 4 lenBytes)
    match p.read certLen st with
    | (cert, eof, st) =>
      if cert.length ≠ certLen ∧ eof then .error .eof
      else .ok (filled certLen cert, st)

/-! ## Decompressing -/

/-- The loop that reads the certificates, over the entries that are left with what
is in the chain so far.  The index goes past the entries that are not compressed
before the next certificate is read instead of after it. -/
def ReadPlan.readCerts (p : ReadPlan) (uncompressedLength : UInt32) :
    List (Entry × Cert) → Stream → (totalLength : UInt32) → Except CertError (List Cert)
  | [], st, totalLength =>
    if totalLength < uncompressedLength then do
      let _ ← p.readCert st
      throw .noElementToSave
    else pure []
  | (.compressed, old) :: slots, st, totalLength =>
    if totalLength < uncompressedLength then do
      let (cert, st) ← p.readCert st
      let chain ← p.readCerts uncompressedLength slots st
        (totalLength + UInt32.ofNat (4 + cert.length))
      pure (cert :: chain)
    else pure (old :: slots.map (·.2))
  | (_, cert) :: slots, st, totalLength => do
      let chain ← p.readCerts uncompressedLength slots st totalLength
      pure (cert :: chain)

/-- `ReadByte`, whose value at the end of the data is 0. -/
def readByteOrZero : Reader CertError UInt8
  | [] => .ok 0 []
  | b :: bs => .ok b bs

namespace Codec

/-- A reference into a set of common certificates, with the certificate. -/
def readCommon (c : Codec) : Reader CertError (Entry × Cert) := do
  let h ← UInt64.ofNat <$> uint .littleEndian .eof 8
  let i ← UInt32.ofNat <$> uint .littleEndian .eof 4
  match c.certSets h with
  | none => throw .unknownCertSet
  | some certSet =>
    match certSet[i.toNat]? with
    | none => throw .notFoundInCertSet
    | some cert => pure (.common h i, cert)

/-- The loop over the entries, each with what is put in the chain for it; at most
`n` entries are left since there are no more bytes. -/
def readEntries (c : Codec) : (n : ℕ) → Reader CertError (List (Entry × Cert))
  | 0 => pure []
  | n + 1 => do
      let et ← readByteOrZero
      if et = 0 then pure []
      else if et = 2 then throw .unexpectedCachedCertificate
      else if et = 3 then do
        let slot ← c.readCommon
        let slots ← c.readEntries n
        pure (slot :: slots)
      else if et = 1 then do
        let slots ← c.readEntries n
        pure ((.compressed, []) :: slots)
      else throw .unknownEntryType

/-- `decompressChain`, as a reader of the data. -/
def readChain (c : Codec) (p : ReadPlan) : Reader CertError (List Cert) := do
  let data ← get
  let slots ← c.readEntries data.length
  let chain := slots.map (·.2)
  if slots.any fun slot => slot.1 = .compressed then do
    let uncompressedLength ← UInt32.ofNat <$> uint .littleEndian .eof 4
    let r ← get
    match c.decompress (c.buildZlibDictForEntries (slots.map (·.1)) chain) r with
    | none => throw .zlib
    | some content =>
      lift (p.readCerts uncompressedLength slots ⟨content, 0⟩ 0)
  else pure chain

def decompressChain (c : Codec) (p : ReadPlan) (data : List UInt8) : Except CertError (List Cert) :=
  match c.readChain p data with
  | .ok chain _ => .ok chain
  | .error e _ => .error e

/-- Compress a chain and decompress it again; there are no cached certificates. -/
def roundTrip (c : Codec) (p : ReadPlan) (chain : List Cert)
    (setHashes : List UInt64) : Except CertError (List Cert) := do
  let hashes := setHashes.flatMap fun h =>
    ByteOrder.littleEndian.bytes 8 h.toNat
  let data ← c.compressChain chain hashes []
  c.decompressChain p data

end Codec

/-- The first call of `Read` fills the slice for the length, the second one reads
one byte of the certificate. -/
theorem shortRead_corrupts :
    (Codec.plain fun _ => none).roundTrip
      ⟨fun k => if k = 0 then 4 else 1, false⟩ [[1, 2, 3]] [] = .ok [[1, 0, 0]] := by
  decide

end Pstream.Crypto
