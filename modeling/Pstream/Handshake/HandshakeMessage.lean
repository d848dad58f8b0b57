import Mathlib.Data.Finmap
import Mathlib.Data.Finset.Sort
import Pstream.Protocol
import Pstream.Support.Writer

/-!
# Handshake messages

A message of the crypto handshake is a tag and a map from tags to values.  On the
wire an index with the tags and the ends of the values stands before the values.
What `Write` writes, `ParseHandshakeMessage` reads back, and whatever is read
keeps within the limits on handshake messages.
-/

namespace Pstream.Handshake

open List Support Support.Reader ByteOrder

abbrev Tag := UInt32

/-- A map from tags to values. -/
abbrev TagMap := Finmap fun _ : Tag => List UInt8

namespace TagMap

/-- The assignment `m[t] = v`. -/
def set (m : TagMap) (t : Tag) (v : List UInt8) : TagMap := Finmap.insert t v m

theorem lookup_set (m : TagMap) (t t' : Tag) (v : List UInt8) :
    (m.set t v).lookup t' = if t' = t then some v else m.lookup t' := by
  split_ifs with ht
  · subst ht
    exact Finmap.lookup_insert m
  · exact Finmap.lookup_insert_of_ne m ht

theorem card_keys_set_le (m : TagMap) (t : Tag) (v : List UInt8) :
    (m.set t v).keys.card ≤ m.keys.card + 1 := by
  have hsub : (m.set t v).keys ⊆ insert t m.keys := by
    intro t' ht'
    rw [Finmap.mem_keys, set, Finmap.mem_insert] at ht'
    rwa [Finset.mem_insert]
  exact (Finset.card_le_card hsub).trans (Finset.card_insert_le t m.keys)

end TagMap

structure HandshakeMessage where
  tag : Tag
  data : TagMap

def cryptoMaxParams : ℕ := 128

def cryptoParameterMaxLength : ℕ := 4000

inductive HandshakeError
  | eof
  | unexpectedEOF
  | cryptoTooManyEntries
  | valueTooLong
deriving DecidableEq, Repr

/-! ## Writing -/

/-- `PutUint32` of the little endian byte order. -/
def putUint32 (v : UInt32) : List UInt8 := ByteOrder.littleEndian.bytes 4 v.toNat

def TagMap.value (data : TagMap) (t : Tag) : List UInt8 := (data.lookup t).getD []

/-- The loop of `Write` over the sorted tags: the buffer and the index that has
been filled so far. -/
def writeValues (data : TagMap) : List Tag → (offset : UInt32) → (b indexData : List UInt8) →
      List UInt8 × List UInt8
  | [], _, b, indexData => (b, indexData)
  | t :: ts, offset, b, indexData =>
    let v := data.value t
    let offset := offset + UInt32.ofNat v.length
    writeValues data ts offset (b ++ v) (indexData ++ putUint32 t ++ putUint32 offset)

namespace HandshakeMessage

def getTagsSorted (h : HandshakeMessage) : List Tag := h.data.keys.sort (· ≤ ·)

/-- Write the message to a buffer.  The place of the index is filled with zeros
until the index is known. -/
def write (h : HandshakeMessage) (b : List UInt8) : List UInt8 :=
  let len := h.data.keys.card
  let b := b ++ putUint32 h.tag ++ ByteOrder.littleEndian.bytes 2 len ++ [0, 0]
  let indexStart := b.length
  let b := b ++ List.replicate (8 * len) 0
  let (b, indexData) := writeValues h.data h.getTagsSorted 0 b []
  b.take indexStart ++ indexData ++ b.drop (indexStart + indexData.length)

end HandshakeMessage

/-! ## Parsing -/

/-- `io.ReadFull` with a slice of `n` bytes. -/
def readFull (n : ℕ) : Reader HandshakeError (List UInt8) := fun s =>
  if n ≤ s.length then .ok (s.take n) (s.drop n)
  else .error (if s = [] then .eof else .unexpectedEOF) []

/-- `Uint32` of the little endian byte order. -/
def uint32 (bs : List UInt8) : UInt32 := UInt32.ofNat (ByteOrder.littleEndian.value bs)

/-- The loop over the rest of the index.  Lengths are differences of 32-bit
integers. -/
def parsePairs : ℕ → (index : List UInt8) → (dataStart : UInt32) → TagMap →
    Reader HandshakeError TagMap
  | 0, _, _, resultMap => pure resultMap
  | n + 1, index, dataStart, resultMap => do
      let tag := uint32 (index.take 4)
      let dataEnd := uint32 ((index.drop 4).take 4)
      let dataLen := (dataEnd - dataStart).toNat
      refuse (cryptoParameterMaxLength < dataLen) .valueTooLong
      let data ← readFull dataLen
      parsePairs n (index.drop 8) dataEnd (resultMap.set tag data)

def parseHandshakeMessage : Reader HandshakeError HandshakeMessage := do
  let messageTag ← uint32 <$> readFull 4
  let nPairs ← uint32 <$> readFull 4
  refuse (cryptoMaxParams < nPairs.toNat) .cryptoTooManyEntries
  let index ← readFull (nPairs.toNat * 8)
  let resultMap ← parsePairs nPairs.toNat index 0 ∅
  pure ⟨messageTag, resultMap⟩

/-! ## The limits -/

/-- The limits that the parser enforces. -/
structure HandshakeMessage.WithinLimits (h : HandshakeMessage) : Prop where
  entries : h.data.keys.card ≤ cryptoMaxParams
  values : ∀ t v, h.data.lookup t = some v → v.length ≤ cryptoParameterMaxLength

theorem reads_readFull (n : ℕ) : Reads (readFull n) fun bs => bs.length = n := by
  intro s bs rest h
  unfold readFull at h
  split_ifs at h with hn
  · cases h
    exact ⟨drop_suffix n s, length_take_of_le hn⟩

/-- Every round adds one entry at most, and its value is within the limit. -/
theorem reads_parsePairs (n : ℕ) {k : ℕ} (index : List UInt8) (dataStart : UInt32) {m : TagMap}
    (hk : m.keys.card ≤ k) (hm : ∀ t v, m.lookup t = some v → v.length ≤ cryptoParameterMaxLength) :
    Reads (parsePairs n index dataStart m) fun m' =>
      m'.keys.card ≤ k + n ∧ ∀ t v, m'.lookup t = some v → v.length ≤ cryptoParameterMaxLength := by
  induction n generalizing k index dataStart m with
  | zero => exact reads_pure ⟨hk, hm⟩
  | succ n ih =>
    refine (reads_refuse _ _).bind fun _ hlen => ?_
    refine (reads_readFull _).bind fun data hdata => ?_
    have hset := m.card_keys_set_le (uint32 (index.take 4)) data
    have hk' := hset.trans (Nat.add_le_add_right hk 1)
    have hnext := ih (index.drop 8) (uint32 ((index.drop 4).take 4)) hk' ?_
    · rwa [Nat.add_assoc, Nat.add_comm 1 n] at hnext
    · intro t v hv
      rw [TagMap.lookup_set] at hv
      split_ifs at hv with ht
      · rw [← Option.some.inj hv, hdata]
        exact Nat.le_of_not_lt hlen
      · exact hm t v hv

theorem reads_parseHandshakeMessage :
    Reads parseHandshakeMessage HandshakeMessage.WithinLimits := by
  refine Reads.seq ((reads_readFull 4).imp fun _ _ => trivial).map fun tag => ?_
  refine Reads.seq ((reads_readFull 4).imp fun _ _ => trivial).map fun n => ?_
  refine (reads_refuse _ _).bind fun _ hn => ?_
  refine Reads.seq ((reads_readFull _).imp fun _ _ => trivial) fun index => ?_
  have hpairs := reads_parsePairs n.toNat (k := 0) index 0 (m := ∅) (by simp) (by simp)
  refine hpairs.bind fun m hm => reads_pure ⟨?_, hm.2⟩
  have hcard := hm.1
  rw [Nat.zero_add] at hcard
  exact hcard.trans (Nat.le_of_not_lt hn)

/-! ## Reading back what has been written -/

/-- The index of the values of some tags, the first of which starts at
`offset`. -/
def indexFrom (data : TagMap) : List Tag → (offset : UInt32) → List UInt8
  | [], _ => []
  | t :: ts, offset =>
    let dataEnd := offset + UInt32.ofNat (data.value t).length
    putUint32 t ++ putUint32 dataEnd ++ indexFrom data ts dataEnd

variable (v : UInt32) (h : HandshakeMessage) (data : TagMap)

theorem writeValues_eq (ts : List Tag) (offset : UInt32) (b indexData : List UInt8) :
    writeValues data ts offset b indexData =
      (b ++ ts.flatMap data.value, indexData ++ indexFrom data ts offset) := by
  induction ts generalizing offset b indexData with
  | nil => simp [writeValues, indexFrom]
  | cons t ts ih =>
    rw [writeValues, ih]
    simp [indexFrom]

@[simp] theorem length_putUint32 : (putUint32 v).length = 4 :=
  length_bytes _ 4 _

theorem length_indexFrom (ts : List Tag) (offset : UInt32) :
    (indexFrom data ts offset).length = 8 * ts.length := by
  induction ts generalizing offset with
  | nil => rfl
  | cons t ts ih =>
    simp only [indexFrom, length_append, length_putUint32, ih, length_cons]
    omega

theorem uint32_putUint32 : uint32 (putUint32 v) = v := by
  rw [uint32, putUint32, value_bytes, ← UInt32.toNat_inj, UInt32.toNat_ofNat']
  have := v.toNat_lt
  omega

/-- What a message adds to a buffer: the header, the index and the values. -/
def HandshakeMessage.bytes (h : HandshakeMessage) : List UInt8 :=
  putUint32 h.tag ++ (ByteOrder.littleEndian.bytes 2 h.data.keys.card ++ [0, 0])
    ++ indexFrom h.data h.getTagsSorted 0
    ++ h.getTagsSorted.flatMap h.data.value

theorem HandshakeMessage.length_getTagsSorted : h.getTagsSorted.length = h.data.keys.card :=
  Finset.length_sort _

/-- The index takes exactly the place that was left for it. -/
theorem HandshakeMessage.write_eq (b : List UInt8) : h.write b = b ++ h.bytes := by
  have hlen := length_indexFrom h.data h.getTagsSorted 0
  rw [h.length_getTagsSorted] at hlen
  unfold write bytes
  simp only [writeValues_eq, nil_append, hlen]
  rw [append_assoc _ (List.replicate _ _), take_left, ← drop_drop, drop_left' (by simp)]
  simp

theorem decodes_readFull (bs rest : List UInt8) : Decodes (readFull bs.length) bs rest bs := by
  unfold Decodes readFull
  rw [if_pos (by simp), take_left, drop_left]

theorem decodes_uint32 {bs : List UInt8} (hbs : bs.length = 4) (rest : List UInt8) :
    Decodes (uint32 <$> readFull 4) bs rest (uint32 bs) := by
  have h := decodes_readFull bs rest
  rw [hbs] at h
  exact h.map uint32

variable {n : ℕ} {h : HandshakeMessage}

/-- The length of a value is the difference of its ends, even if the offsets wrap
around. -/
theorem toNat_dataLen (offset : UInt32) (hn : n ≤ cryptoParameterMaxLength) :
    (offset + UInt32.ofNat n - offset).toNat = n := by
  have hlt : n < 2 ^ 32 := hn.trans_lt (by decide)
  rw [UInt32.add_comm, UInt32.add_sub_cancel, UInt32.toNat_ofNat', Nat.mod_eq_of_lt hlt]

theorem decodes_parsePairs {data : TagMap}
    (hlen : ∀ t, (data.value t).length ≤ cryptoParameterMaxLength)
    (ts : List Tag) (offset : UInt32) (m : TagMap) (rest : List UInt8) :
    Decodes (parsePairs ts.length (indexFrom data ts offset) offset m) (ts.flatMap data.value) rest
      (ts.foldl (fun m t => m.set t (data.value t)) m) := by
  induction ts generalizing offset m with
  | nil => rfl
  | cons t ts ih =>
    let dataEnd := offset + UInt32.ofNat (data.value t).length
    have hindex : indexFrom data (t :: ts) offset =
        putUint32 t ++ (putUint32 dataEnd ++ indexFrom data ts dataEnd) := by
      rw [indexFrom, append_assoc]
    have htag : (indexFrom data (t :: ts) offset).take 4 = putUint32 t := by
      rw [hindex, take_left' (length_putUint32 t)]
    have hend : ((indexFrom data (t :: ts) offset).drop 4).take 4 = putUint32 dataEnd := by
      rw [hindex, drop_left' (length_putUint32 t), take_left' (length_putUint32 dataEnd)]
    have hdataLen : (dataEnd - offset).toNat = (data.value t).length :=
      toNat_dataLen offset (hlen t)
    refine Decodes.refuse ?_ ?_
    · rw [hend, uint32_putUint32, hdataLen]
      exact Nat.not_lt.mpr (hlen t)
    · simp only [htag, hend, uint32_putUint32, hdataLen]
      exact (decodes_readFull _ _).bind (ih dataEnd _)

/-- Assigning the values of all tags makes up the whole map. -/
theorem lookup_foldl_set (ts : List Tag) (m : TagMap) (t : Tag) :
    (ts.foldl (fun m t => m.set t (data.value t)) m).lookup t =
      if t ∈ ts then some (data.value t) else m.lookup t := by
  induction ts generalizing m with
  | nil => simp
  | cons t' ts ih =>
    rw [foldl_cons, ih, TagMap.lookup_set]
    by_cases ht : t = t'
    · subst ht
      simp
    · simp [ht]

theorem HandshakeMessage.foldl_set_eq (h : HandshakeMessage) :
    h.getTagsSorted.foldl (fun m t => m.set t (h.data.value t)) ∅ =
      h.data := by
  refine Finmap.ext_lookup fun t => ?_
  rw [lookup_foldl_set]
  split_ifs with ht
  all_goals rw [getTagsSorted, Finset.mem_sort, Finmap.mem_keys] at ht
  · obtain ⟨v, hv⟩ := Finmap.mem_iff.mp ht
    rw [TagMap.value, hv, Option.getD_some]
  · exact (Finmap.lookup_eq_none.mpr ht).symm

theorem HandshakeMessage.WithinLimits.length_value (hlimits : h.WithinLimits) (t : Tag) :
    (h.data.value t).length ≤ cryptoParameterMaxLength := by
  rw [TagMap.value]
  cases hv : h.data.lookup t with
  | none => exact Nat.zero_le _
  | some v => exact hlimits.values t v hv

/-- The number of entries is read from its two bytes and two zeros. -/
theorem uint32_count (hn : n ≤ cryptoMaxParams) :
    (uint32 (littleEndian.bytes 2 n ++ [0, 0])).toNat = n := by
  have hlt : n < 256 ^ 2 := hn.trans_lt (by decide)
  have hvalue : littleEndian.value (littleEndian.bytes 2 n ++ [0, 0]) = n := by
    have hlow := littleEndian.value_bytes 2 n
    rw [Nat.mod_eq_of_lt hlt] at hlow
    rw [value] at hlow ⊢
    rw [map_append, Nat.ofDigits_append, hlow]
    rfl
  rw [uint32, UInt32.toNat_ofNat']
  omega

theorem HandshakeMessage.decodes_bytes (hlimits : h.WithinLimits) (rest : List UInt8) :
    Decodes parseHandshakeMessage h.bytes rest h := by
  have hcount := uint32_count hlimits.entries
  have hindex : (indexFrom h.data h.getTagsSorted 0).length = h.data.keys.card * 8 := by
    rw [length_indexFrom, h.length_getTagsSorted, Nat.mul_comm]
  have hpairs := decodes_parsePairs hlimits.length_value h.getTagsSorted 0 ∅ rest
  rw [h.length_getTagsSorted, h.foldl_set_eq] at hpairs
  unfold bytes parseHandshakeMessage
  rw [append_assoc, append_assoc]
  refine (decodes_uint32 (length_putUint32 h.tag) _).bind ?_
  refine (decodes_uint32 (by simp) _).bind ?_
  rw [hcount, uint32_putUint32]
  refine Decodes.refuse (Nat.not_lt.mpr hlimits.entries) ?_
  rw [← hindex]
  refine (decodes_readFull _ _).bind ?_
  exact hpairs.last (decodes_pure _ rest)

/-- What is written within the limits is read back, up to the last byte of it; and
whatever is read, also with ends that decrease, is within the limits. -/
theorem parseHandshakeMessage_write
    (h : HandshakeMessage)
    (hlimits : h.WithinLimits)
    (b rest : List UInt8) :
    (∃ bytes, h.write b = b ++ bytes ∧ parseHandshakeMessage (bytes ++ rest) = .ok h rest) ∧
      ∀ input h' rest', parseHandshakeMessage input = .ok h' rest' → h'.WithinLimits := by
  constructor
  · exact ⟨h.bytes, h.write_eq b, h.decodes_bytes hlimits rest⟩
  · intro input h' rest' hparse
    exact (reads_parseHandshakeMessage hparse).2

/-- A message with two entries, written behind a byte and followed by one. -/
theorem twoEntries_parsed :
    let h : HandshakeMessage := ⟨0x4f4c4843, (TagMap.set ∅ 0x434e4f4e [1, 2, 3]).set 0x444150 []⟩
    (∃ bytes, h.write [7] = [7] ++ bytes ∧ parseHandshakeMessage (bytes ++ [9]) = .ok h [9]) ∧
      ∀ input h' rest', parseHandshakeMessage input = .ok h' rest' → h'.WithinLimits := by
  refine parseHandshakeMessage_write _ ⟨by decide, ?_⟩ [7] [9]
  intro t v hv
  rw [TagMap.lookup_set, TagMap.lookup_set, Finmap.lookup_empty] at hv
  split_ifs at hv
  all_goals
    rw [← Option.some.inj hv]
    decide

end Pstream.Handshake
