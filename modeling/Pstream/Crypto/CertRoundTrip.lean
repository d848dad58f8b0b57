import Mathlib.Algebra.BigOperators.Group.List.Defs
import Pstream.Crypto.CertReader

/-!
# Certificate chains through compression and back

The entries of a compressed chain are read back with the certificates of the
common sets, and the dictionary is built again from them.  What then becomes of
the compressed certificates depends on the reader of the decompressed data.
-/

namespace Pstream.Crypto

open List Support Support.Reader Codec ByteOrder

/-- What the compression relies on: zlib gives back what it was given, and a
position in a set of common certificates fits in 32 bits. -/
structure Codec.Lawful (c : Codec) : Prop where
  decompress_compress : ∀ dict data, c.decompress dict (c.compress dict data) = some data
  length_certSet : ∀ h set, c.certSets h = some set → set.length < 2 ^ 32

variable {c : Codec} {setHashes : List UInt64}

/-! ## The hashes of the sets -/

theorem take_drop_flatMap {α : Type} {f : α → List UInt8} {n : ℕ}
    (hf : ∀ a, (f a).length = n) (as : List α) {i : ℕ} (hi : i < as.length) :
    ((as.flatMap f).drop (i * n)).take n = f as[i] := by
  induction as generalizing i with
  | nil => exact absurd hi (Nat.not_lt_zero i)
  | cons a as ih =>
    rw [flatMap_cons]
    cases i with
    | zero => simp [take_left' (hf a)]
    | succ i =>
      have hlen : (i + 1) * n = (f a).length + i * n := by
        rw [hf a, Nat.succ_mul, Nat.add_comm]
      rw [hlen, ← drop_drop, drop_left]
      exact ih (Nat.lt_of_succ_lt_succ hi)

theorem splitHashes_flatMap (hashes : List UInt64) :
    splitHashes (hashes.flatMap fun h =>
      littleEndian.bytes 8 h.toNat) = .ok hashes := by
  have hbytes : ∀ h : UInt64, (littleEndian.bytes 8 h.toNat).length = 8 :=
    fun h => length_bytes _ 8 _
  unfold splitHashes
  have hlen : (hashes.flatMap fun h =>
      littleEndian.bytes 8 h.toNat).length = hashes.length * 8 := by
    simp [sum_replicate]
  rw [if_neg (by omega)]
  refine congrArg Except.ok (ext_getElem (by simp) fun i hi hi' => ?_)
  rw [getElem_map, getElem_range, take_drop_flatMap hbytes _ hi',
    value_bytes, ← UInt64.toNat_inj, UInt64.toNat_ofNat']
  have := hashes[i].toNat_lt
  omega

/-! ## Entries -/

/-- The entry of a certificate when nothing is cached. -/
def Codec.entryOf (c : Codec) (setHashes : List UInt64) (cert : Cert) : Entry :=
  c.buildEntry [] setHashes cert (hashCert cert)

/-- The certificates that are in none of the sets and have to be compressed. -/
def Codec.unknownCerts (c : Codec) (setHashes : List UInt64) (chain : List Cert) : List Cert :=
  toRead (c.entryOf setHashes) chain

variable {cert : Cert} {rest : List UInt8}

theorem Codec.entryOf_eq :
    c.entryOf setHashes cert = ((c.findCommon setHashes cert).elim .compressed fun found =>
        .common found.1 (UInt32.ofNat found.2)) := by
  unfold entryOf buildEntry
  cases c.findCommon setHashes cert with
  | none | some => rfl

/-- An entry refers to the place of the certificate in a set, or the certificate
has to be compressed. -/
theorem Codec.Lawful.entryOf_cases (hc : c.Lawful) :
    c.entryOf setHashes cert = .compressed ∨ ∃ h i set, c.entryOf setHashes cert = .common h i ∧
        c.certSets h = some set ∧ set[i.toNat]? = some cert := by
  rw [entryOf_eq]
  cases hfound : c.findCommon setHashes cert with
  | none => exact .inl rfl
  | some found =>
    obtain ⟨h, pos⟩ := found
    obtain ⟨setHash, -, hset⟩ := exists_of_findSome?_eq_some hfound
    obtain ⟨pos', hpos, heq⟩ := Option.map_eq_some_iff.mp hset
    obtain ⟨set, hknown, hfind⟩ := Option.bind_eq_some_iff.mp hpos
    obtain ⟨rfl, rfl⟩ := Prod.mk.inj heq
    obtain ⟨hlt, hcert, -⟩ := List.findIdx?_eq_some_iff_getElem.mp hfind
    have hi : (UInt32.ofNat pos').toNat = pos' := by
      exact Nat.mod_eq_of_lt (hlt.trans (hc.length_certSet _ _ hknown))
    refine .inr ⟨setHash, UInt32.ofNat pos', set, rfl, hknown, ?_⟩
    rw [hi, List.getElem?_eq_getElem hlt, eq_of_beq hcert]

theorem Codec.buildEntries_eq (c : Codec) (chain : List Cert) (setHashes : List UInt64) :
    c.buildEntries chain (chain.map hashCert) [] setHashes = chain.map (c.entryOf setHashes) := by
  rw [buildEntries, zipWith_map_right, zipWith_self]
  rfl

variable (chain : List Cert)

theorem compressedCerts_eq :
    compressedCerts (chain.map (c.entryOf setHashes)) chain = c.unknownCerts setHashes chain := by
  have hzip : (chain.map (c.entryOf setHashes)).zip (chain.map id) = _ := zip_map'
  rw [map_id] at hzip
  rw [compressedCerts, hzip, filter_map, map_map]
  exact map_id _

/-- The dictionary does not depend on what is compressed. -/
theorem Codec.buildZlibDict_slots (c : Codec) (entryOf : Cert → Entry) (chain : List Cert) :
    c.buildZlibDictForEntries ((chain.map (slotOf entryOf)).map (·.1))
        ((chain.map (slotOf entryOf)).map (·.2)) =
      c.buildZlibDictForEntries (chain.map entryOf) chain := by
  have hzip : (chain.map entryOf).zip (chain.map id) = _ := zip_map'
  rw [map_id] at hzip
  unfold buildZlibDictForEntries
  rw [hzip, map_map, map_map, zip_map', ← map_reverse,
    ← map_reverse, filter_map, filter_map, flatMap_map,
    flatMap_map]
  refine congrArg (· ++ c.certDictZlib) (flatMap_congr fun cert hcert => ?_)
  have hentry := (mem_filter.mp hcert).2
  simp only [Function.comp_apply, slotOf, decide_eq_true_eq] at hentry
  simp [slotOf, hentry]

/-! ## Reading the entries -/

theorem decodes_readByteOrZero (b : UInt8) : Decodes readByteOrZero [b] rest b :=
  rfl

theorem decodes_uint64 (v : UInt64) :
    Decodes (UInt64.ofNat <$> uint .littleEndian CertError.eof 8)
      (littleEndian.bytes 8 v.toNat) rest v := by
  have h := (decodes_uint .littleEndian CertError.eof
    (show v.toNat < 256 ^ 8 from v.toNat_lt) rest).map UInt64.ofNat
  rwa [UInt64.ofNat_toNat] at h

theorem decodes_uint32 (v : UInt32) (rest : List UInt8) :
    Decodes (UInt32.ofNat <$> uint .littleEndian CertError.eof 4)
      (littleEndian.bytes 4 v.toNat) rest v := by
  have h := (decodes_uint .littleEndian CertError.eof
    (show v.toNat < 256 ^ 4 from v.toNat_lt) rest).map UInt32.ofNat
  rwa [UInt32.ofNat_toNat] at h

theorem decodes_readCommon {h : UInt64} {i : UInt32} {set : List Cert} {cert : Cert}
    (hset : c.certSets h = some set) (hcert : set[i.toNat]? = some cert) :
    Decodes c.readCommon (littleEndian.bytes 8 h.toNat ++
      littleEndian.bytes 4 i.toNat) rest (.common h i, cert) := by
  refine (decodes_uint64 h).bind ((decodes_uint32 i rest).last ?_)
  rw [hset]
  dsimp only
  rw [hcert]
  exact decodes_pure _ rest

theorem Codec.Lawful.decodes_readEntries (hc : c.Lawful) (chain : List Cert) {n : ℕ}
    (hn : chain.length < n) :
    Decodes (c.readEntries n) ((chain.map (c.entryOf setHashes)).flatMap Entry.bytes ++ [0]) rest
      (chain.map (slotOf (c.entryOf setHashes))) := by
  induction chain generalizing n with
  | nil =>
    obtain ⟨n, rfl⟩ := Nat.exists_eq_succ_of_ne_zero (Nat.ne_of_gt hn)
    rfl
  | cons cert chain ih =>
    obtain ⟨n, rfl⟩ := Nat.exists_eq_succ_of_ne_zero (Nat.ne_zero_of_lt hn)
    have hrest := ih (Nat.lt_of_succ_lt_succ hn)
    rw [map_cons, map_cons]
    rcases hc.entryOf_cases with
      hentry | ⟨h, i, set, hentry, hset, hcert⟩
    · have hslot : slotOf (c.entryOf setHashes) cert = (.compressed, []) := by
        rw [slotOf, hentry]
        rfl
      rw [hentry, hslot]
      exact (decodes_readByteOrZero 1).bind (hrest.last (decodes_pure _ rest))
    · have hslot : slotOf (c.entryOf setHashes) cert = (.common h i, cert) := by
        rw [slotOf, hentry]
        rfl
      rw [hentry, hslot]
      refine (decodes_readByteOrZero 3).bind ?_
      exact (decodes_readCommon hset hcert).bind (hrest.last (decodes_pure _ rest))

/-- Each entry takes at least one byte, so that the length of the data bounds the
number of entries. -/
theorem length_le_flatMap_bytes (entries : List Entry) :
    entries.length ≤ (entries.flatMap Entry.bytes).length := by
  induction entries with
  | nil => exact Nat.zero_le _
  | cons entry entries ih =>
    have hone : 1 ≤ entry.bytes.length := by
      cases entry <;> simp [Entry.bytes]
    rw [flatMap_cons, length_append, length_cons]
    omega

theorem totalUncompressedLen_pos {certs : List Cert} :
    0 < totalUncompressedLen certs ↔ certs ≠ [] := by
  cases certs with
  | nil | cons => simp [totalUncompressedLen]

theorem Codec.any_compressed_iff :
    (chain.map (slotOf (c.entryOf setHashes))).any (fun slot => slot.1 = .compressed) = true ↔
      c.unknownCerts setHashes chain ≠ [] := by
  rw [any_eq_true, unknownCerts, Ne, filter_eq_nil_iff]
  constructor
  · rintro ⟨slot, hslot, hentry⟩ hnone
    obtain ⟨cert, hcert, rfl⟩ := mem_map.mp hslot
    exact hnone cert hcert hentry
  · intro hsome
    push Not at hsome
    obtain ⟨cert, hcert, hentry⟩ := hsome
    exact ⟨slotOf _ cert, mem_map_of_mem hcert, hentry⟩

theorem Codec.slots_of_known {chain : List Cert} (hknown : c.unknownCerts setHashes chain = []) :
    (chain.map (slotOf (c.entryOf setHashes))).map (·.2) =
      chain := by
  have hentry : ∀ cert ∈ chain, c.entryOf setHashes cert ≠ .compressed := by
    simpa [unknownCerts] using hknown
  rw [map_map]
  refine (map_congr_left fun cert hcert => ?_).trans (map_id chain)
  simp [slotOf, hentry cert hcert]

section Decompress

variable (hc : c.Lawful) (p : ReadPlan) (setHashes : List UInt64) {chain : List Cert}

include hc

/-- The entries at the front of the data are read, and the rest is left. -/
theorem Codec.Lawful.readEntries_ok (chain : List Cert) (rest : List UInt8) :
    let data := (chain.map (c.entryOf setHashes)).flatMap Entry.bytes ++ [0] ++ rest
    c.readEntries data.length data = .ok (chain.map (slotOf (c.entryOf setHashes))) rest := by
  have hlen := length_le_flatMap_bytes (chain.map (c.entryOf setHashes))
  rw [length_map] at hlen
  refine hc.decodes_readEntries chain ?_
  simp only [length_append, length_singleton]
  omega

theorem Codec.Lawful.decompressChain_of_known (hknown : c.unknownCerts setHashes chain = []) :
    c.decompressChain p ((chain.map (c.entryOf setHashes)).flatMap Entry.bytes ++ [0]) =
        .ok chain := by
  have hread := hc.readEntries_ok setHashes chain []
  have hany : ¬ (chain.map (slotOf (c.entryOf setHashes))).any
        (fun slot => slot.1 = .compressed) = true := by
    rw [any_compressed_iff]
    exact not_not_intro hknown
  rw [append_nil] at hread
  unfold decompressChain readChain
  rw [get_bind, bind_of_ok hread, if_neg hany, slots_of_known hknown]
  rfl

theorem Codec.Lawful.decompressChain_of_unknown (hunknown : c.unknownCerts setHashes chain ≠ [])
    (total : ℕ) (content : List UInt8) :
    c.decompressChain p ((chain.map (c.entryOf setHashes)).flatMap Entry.bytes ++ [0] ++
        littleEndian.bytes 4 total ++
        c.compress (c.buildZlibDictForEntries (chain.map (c.entryOf setHashes)) chain) content) =
      p.readCerts (UInt32.ofNat total) (chain.map (slotOf (c.entryOf setHashes)))
        ⟨content, 0⟩ 0 := by
  have hread := hc.readEntries_ok setHashes chain
    (littleEndian.bytes 4 total ++ c.compress
      (c.buildZlibDictForEntries (chain.map (c.entryOf setHashes)) chain)
      content)
  have htotal := (decodes_uint_mod .littleEndian CertError.eof 4 total
    (c.compress (c.buildZlibDictForEntries
      (chain.map (c.entryOf setHashes)) chain) content)).map UInt32.ofNat
  have hmod : UInt32.ofNat (total % 256 ^ 4) = UInt32.ofNat total := by
    rw [← UInt32.toNat_inj, UInt32.toNat_ofNat', UInt32.toNat_ofNat']
    omega
  rw [hmod] at htotal
  rw [← append_assoc] at hread
  unfold decompressChain readChain
  rw [get_bind, bind_of_ok hread, if_pos (any_compressed_iff chain |>.mpr hunknown),
    bind_of_ok htotal, get_bind, c.buildZlibDict_slots, hc.decompress_compress]
  dsimp only
  cases p.readCerts (UInt32.ofNat total) (chain.map (slotOf (c.entryOf setHashes)))
    ⟨content, 0⟩ 0 with
  | ok | error => rfl

/-- If all certificates are known, the chain comes back; otherwise the compressed
ones are read from the reader. -/
theorem Codec.Lawful.roundTrip_eq : c.roundTrip p chain setHashes =
      if c.unknownCerts setHashes chain = [] then .ok chain
      else p.readCerts (UInt32.ofNat (totalUncompressedLen (c.unknownCerts setHashes chain)))
        (chain.map (slotOf (c.entryOf setHashes)))
        ⟨(c.unknownCerts setHashes chain).flatMap certBytes, 0⟩ 0 := by
  have hnil : splitHashes [] = .ok [] := rfl
  unfold roundTrip compressChain
  simp only [hnil, splitHashes_flatMap, except_ok_bind, c.buildEntries_eq,
    compressedCerts_eq, totalUncompressedLen_pos]
  by_cases hknown : c.unknownCerts setHashes chain = []
  · rw [if_neg (not_not_intro hknown), if_pos hknown]
    exact hc.decompressChain_of_known p setHashes hknown
  · rw [if_pos hknown, if_neg hknown]
    exact hc.decompressChain_of_unknown p setHashes hknown _ _

end Decompress

/-! ## Which chains come back -/

/-- The certificate is in one of the sets that are listed and known. -/
def Codec.knows (c : Codec) (setHashes : List UInt64) (cert : Cert) : Bool :=
  setHashes.any fun h => (c.certSets h).any fun set => set.contains cert

theorem findCertInSet_isSome (set : List Cert) :
    (findCertInSet set cert).isSome = set.contains cert := by
  rw [findCertInSet, List.findIdx?_isSome]
  exact any_beq'

theorem Codec.findCommon_isSome :
    (c.findCommon setHashes cert).isSome = c.knows setHashes cert := by
  rw [Bool.eq_iff_iff, findCommon, List.findSome?_isSome_iff, knows, any_eq_true]
  refine exists_congr fun h => and_congr_right fun _ => ?_
  rw [Option.isSome_map]
  cases c.certSets h with
  | none => simp
  | some set =>
    rw [Option.bind_some, findCertInSet_isSome]
    rfl

theorem Codec.unknownCerts_eq : c.unknownCerts setHashes chain =
      chain.filter fun cert => !c.knows setHashes cert := by
  refine filter_congr fun cert _ => ?_
  rw [← findCommon_isSome, entryOf_eq]
  cases c.findCommon setHashes cert with
  | none | some => rfl

section Main

variable (hc : c.Lawful)

include hc

variable {chain : List Cert}

/-- What is left of the compressed certificates by a reader that returns nothing
at first. -/
theorem Codec.Lawful.empty_of_roundTrip (h : ∀ p, c.roundTrip p chain setHashes = .ok chain) :
    ∀ cert ∈ c.unknownCerts setHashes chain, cert = [] := by
  intro cert hcert
  have hround := h ⟨fun k => if k < 2 * chain.length then 0 else 2 ^ 32, false⟩
  rw [hc.roundTrip_eq, if_neg (ne_nil_of_mem hcert)] at hround
  have heq := readCerts_of_nothing (N := 2 * chain.length)
    (fun k hk => if_pos hk) chain (by simp) 0 hround
  obtain ⟨hmem, hentry⟩ := mem_filter.mp hcert
  rw [map_map] at heq
  have hself := map_eq_map_iff.mp ((map_id chain).trans heq) cert hmem
  have hslot : (slotOf (c.entryOf setHashes) cert).2 = [] := if_pos (of_decide_eq_true hentry)
  exact hself.trans hslot

/-- A reader that reports the end of the data with the last bytes makes empty
certificates fail, unless they are so many that the loop ends before. -/
theorem Codec.Lawful.many_of_roundTrip (h : ∀ p, c.roundTrip p chain setHashes = .ok chain)
    (hunknown : c.unknownCerts setHashes chain ≠ []) :
    2 ^ 30 ≤ (c.unknownCerts setHashes chain).length := by
  by_contra hfew
  have hempty := hc.empty_of_roundTrip h
  have hround := h ⟨fun _ => 4, true⟩
  rw [hc.roundTrip_eq, if_neg hunknown, flatMap_certBytes_of_empty hempty,
    totalUncompressedLen_of_empty hempty] at hround
  have htotal : (0 : UInt32).toNat + 4 * (toRead (c.entryOf setHashes) chain).length = (UInt32.ofNat
        (4 * (toRead (c.entryOf setHashes) chain).length)).toNat := by
    rw [unknownCerts] at hfew
    rw [UInt32.toNat_ofNat', UInt32.toNat_zero]
    omega
  have hfail := readCerts_of_early (p := ⟨fun _ => 4, true⟩) (fun _ => le_rfl)
    rfl chain hunknown 0 htotal
  cases hfail.symm.trans hround

/-- So many empty certificates come back from every reader. -/
theorem Codec.Lawful.roundTrip_of_many (hempty : ∀ cert ∈ c.unknownCerts setHashes chain, cert = [])
    (hmany : 2 ^ 30 ≤ (c.unknownCerts setHashes chain).length) (p : ReadPlan) :
    c.roundTrip p chain setHashes = .ok chain := by
  have hunknown : c.unknownCerts setHashes chain ≠ [] := by
    intro hnil
    rw [hnil] at hmany
    cases hmany
  rw [hc.roundTrip_eq, if_neg hunknown, flatMap_certBytes_of_empty hempty,
    totalUncompressedLen_of_empty hempty]
  rw [readCerts_of_zeros 0 (r := (c.unknownCerts setHashes chain).length % 2 ^ 30) ?_ (by omega) ?_]
  · refine congrArg Except.ok ?_
    rw [map_map]
    refine (map_congr_left fun cert hcert => ?_).trans (map_id chain)
    by_cases hentry : c.entryOf setHashes cert = .compressed
    · have hslot : (slotOf (c.entryOf setHashes) cert).2 = [] := if_pos hentry
      have hmem : cert ∈ c.unknownCerts setHashes chain :=
        mem_filter.mpr ⟨hcert, decide_eq_true hentry⟩
      exact hslot.trans (hempty cert hmem).symm
    · exact if_neg hentry
  · simp
    omega
  · exact Nat.mod_le _ _

theorem Codec.Lawful.roundTrip_of_fills
    (hlen : totalUncompressedLen (c.unknownCerts setHashes chain) < 2 ^ 32) {p : ReadPlan}
    (hp : p.Fills) : c.roundTrip p chain setHashes = .ok chain := by
  rw [hc.roundTrip_eq]
  split_ifs with hknown
  · rfl
  · refine hp.readCerts chain 0 ?_
    rw [UInt32.toNat_ofNat', UInt32.toNat_zero, Nat.zero_add, Nat.mod_eq_of_lt hlen]
    rfl

/-- The chain comes back from every reader exactly if no certificate of it has to
be compressed, apart from more empty certificates than the lengths can count.  It
comes back from a reader that fills every slice if the length of what is
compressed fits in 32 bits. -/
theorem Codec.Lawful.roundTrip_iff (chain : List Cert) (setHashes : List UInt64) :
    ((∀ p, c.roundTrip p chain setHashes = .ok chain) ↔ (∀ cert ∈ chain, c.knows setHashes cert) ∨
          (∀ cert ∈ chain, c.knows setHashes cert ∨ cert = []) ∧
            2 ^ 30 ≤ (chain.filter fun cert => !c.knows setHashes cert).length) ∧
      (totalUncompressedLen (chain.filter fun cert => !c.knows setHashes cert) < 2 ^ 32 →
        ∀ p : ReadPlan, p.Fills → c.roundTrip p chain setHashes = .ok chain) := by
  have hempty : (∀ cert ∈ c.unknownCerts setHashes chain, cert = []) ↔
      ∀ cert ∈ chain, c.knows setHashes cert ∨ cert = [] := by
    simp [Codec.unknownCerts_eq, or_iff_not_imp_left]
  have hknown : c.unknownCerts setHashes chain = [] ↔ ∀ cert ∈ chain, c.knows setHashes cert := by
    simp [Codec.unknownCerts_eq]
  rw [← hknown, ← hempty, ← Codec.unknownCerts_eq]
  refine ⟨⟨fun h => ?_, ?_⟩, fun hlen p hp => hc.roundTrip_of_fills hlen hp⟩
  · by_cases hnil : c.unknownCerts setHashes chain = []
    · exact Or.inl hnil
    · exact Or.inr ⟨hc.empty_of_roundTrip h, hc.many_of_roundTrip h hnil⟩
  · rintro (hnil | ⟨hempty, hmany⟩) p
    · rw [hc.roundTrip_eq, if_pos hnil]
    · exact hc.roundTrip_of_many hempty hmany p

end Main

/-- A codec with one set of common certificates, for examples. -/
def Codec.oneSet : Codec := .plain fun h => if h = 7 then some [[1], [2, 2]] else none

theorem Codec.oneSet_lawful : oneSet.Lawful where
  decompress_compress _ _ := rfl
  length_certSet := by
    intro h set hset
    simp only [oneSet, plain, Option.ite_none_right_eq_some, Option.some.injEq] at hset
    rw [← hset.2]
    decide

/-- A chain of a common certificate and two others comes back from a reader that fills
every slice, but not from every reader. -/
theorem commonAndUnknown_roundTrip :
    (Codec.oneSet.roundTrip ⟨fun _ => 2 ^ 32, false⟩ [[3, 4, 5], [2, 2], []] [7] =
        .ok [[3, 4, 5], [2, 2], []]) ∧
      ¬∀ p, Codec.oneSet.roundTrip p [[3, 4, 5], [2, 2], []] [7] =
        .ok [[3, 4, 5], [2, 2], []] := by
  obtain ⟨hiff, hfills⟩ := Codec.oneSet_lawful.roundTrip_iff [[3, 4, 5], [2, 2], []] [7]
  constructor
  · exact hfills (by decide) _ ⟨fun _ => le_rfl, rfl⟩
  · rw [hiff]
    decide

end Pstream.Crypto
