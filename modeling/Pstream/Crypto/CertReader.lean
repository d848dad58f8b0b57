import Mathlib.Data.List.Basic
import Pstream.Crypto.CertCompression

/-!
# Reading the compressed certificates

The loop of `decompressChain` over the compressed certificates, for different
readers.  A reader that fills every slice gives the certificates back.  A reader
that returns nothing at first leaves empty certificates behind, and one that
reports the end of the data together with the last bytes makes the loop fail if
the last certificate is empty.
-/

namespace Pstream.Crypto

open List Support Support.Reader ByteOrder

/-! ## Reading one certificate -/

/-- Every call of `Read` fills the slice if there are enough bytes, and reports the
end of the data by itself. -/
structure ReadPlan.Fills (p : ReadPlan) : Prop where
  size : ∀ k, 2 ^ 32 ≤ p.size k
  late : p.early = false

variable {n : ℕ} {p : ReadPlan} {m k : ℕ} {bytes : List UInt8} {st : Stream}

theorem filled_replicate_zero (hm : m ≤ n) :
    filled n (List.replicate m 0) = List.replicate n 0 := by
  rw [filled, length_replicate, replicate_append_replicate, Nat.add_sub_cancel' hm]

theorem filled_of_length (h : bytes.length = n) : filled n bytes = bytes := by
  rw [filled, h, Nat.sub_self, replicate_zero, append_nil]

theorem ReadPlan.readCert_of_zeros {st' : Stream} (hm : m ≤ 4)
    (hread : p.read 4 st = (List.replicate m 0, false, st')) :
    p.readCert st = .ok ([], ⟨st'.rest, st'.calls + 1⟩) := by
  unfold readCert
  rw [hread]
  dsimp only
  rw [filled_replicate_zero hm]
  rfl

/-- A call that returns nothing leaves a length of zero. -/
theorem ReadPlan.readCert_of_nothing (hsize : p.size st.calls = 0) {r : Cert × Stream}
    (hr : p.readCert st = .ok r) : r = ([], ⟨st.rest, st.calls + 2⟩) := by
  have hread : p.read 4 st = ([], (p.read 4 st).2.1, ⟨st.rest, st.calls + 1⟩) := by
    simp [read, hsize]
  cases heof : (p.read 4 st).2.1 with
  | true =>
    rw [heof] at hread
    rw [readCert, hread] at hr
    cases hr
  | false =>
    rw [heof] at hread
    rw [readCert_of_zeros (Nat.zero_le 4) hread] at hr
    exact (Except.ok.inj hr).symm

theorem ReadPlan.readCert_of_replicate (p : ReadPlan) (hn : 4 < n) :
    p.readCert ⟨List.replicate n 0, k⟩ =
      .ok ([], ⟨List.replicate (n - min 4 (p.size k)) 0, k + 2⟩) := by
  have hread : p.read 4 ⟨List.replicate n 0, k⟩ = (List.replicate (min 4 (p.size k)) 0, false,
        ⟨List.replicate (n - min 4 (p.size k)) 0, k + 1⟩) := by
    have htake : min (min 4 (p.size k)) n = min 4 (p.size k) := by omega
    have hne : n ≠ 0 := by omega
    have hrest : n - min 4 (p.size k) ≠ 0 := by omega
    simp [read, htake, hne, hrest]
  exact readCert_of_zeros (Nat.min_le_left 4 _) hread

/-- The end of the data reported with the last length is an error. -/
theorem ReadPlan.readCert_of_early (hsize : 4 ≤ p.size k) (hearly : p.early = true) :
    p.readCert ⟨List.replicate 4 0, k⟩ = .error .eof := by
  have hread : (p.read 4 ⟨List.replicate 4 0, k⟩).2.1 = true := by
    simp [read, hearly, Nat.min_eq_left hsize]
  unfold readCert
  split
  · rfl
  · next heq =>
      rw [heq] at hread
      cases hread

theorem ReadPlan.Fills.read_append (hp : p.Fills) (hlen : bytes.length < 2 ^ 32) (rest : List UInt8)
    (k : ℕ) : p.read bytes.length ⟨bytes ++ rest, k⟩ = (bytes, false, ⟨rest, k + 1⟩) := by
  have hmin : min bytes.length (p.size k) = bytes.length :=
    Nat.min_eq_left (hlen.le.trans (hp.size k))
  have hsome : bytes ≠ [] → bytes ++ rest ≠ [] := by
    intro hne happend
    exact hne (append_eq_nil_iff.mp happend).1
  simp only [read, hmin, hp.late]
  simpa using hsome

theorem ReadPlan.Fills.readCert (hp : p.Fills) {cert : Cert}
    (hlen : cert.length < 2 ^ 32) (rest : List UInt8) (k : ℕ) :
    p.readCert ⟨certBytes cert ++ rest, k⟩ = .ok (cert, ⟨rest, k + 2⟩) := by
  have hbytes : (littleEndian.bytes 4 cert.length).length = 4 :=
    length_bytes _ 4 _
  have hvalue : littleEndian.value (littleEndian.bytes 4 cert.length) = cert.length := by
    rw [value_bytes, Nat.mod_eq_of_lt (by omega)]
  have hshort : (littleEndian.bytes 4 cert.length).length < 2 ^ 32 := by
    rw [hbytes]
    decide
  have hfirst := hp.read_append hshort (cert ++ rest) k
  rw [hbytes] at hfirst
  unfold ReadPlan.readCert certBytes
  rw [append_assoc, hfirst]
  dsimp only
  rw [filled_of_length hbytes, hvalue, hp.read_append hlen]
  simp [filled_of_length]

/-! ## The loop -/

section Loop

variable (entryOf : Cert → Entry)

/-- What stands in the chain for a certificate until the compressed ones are
read. -/
def slotOf (cert : Cert) : Entry × Cert :=
  (entryOf cert, if entryOf cert = .compressed then [] else cert)

variable {entryOf} {p : ReadPlan} {T : UInt32} {cert : Cert} {certs : List Cert} {total : UInt32}

theorem readCerts_of_known (hcert : entryOf cert ≠ .compressed) (slots : List (Entry × Cert)) :
    p.readCerts T (slotOf entryOf cert :: slots) st total = (do
        let chain ← p.readCerts T slots st total
        pure (cert :: chain)) := by
  unfold slotOf
  cases hentry : entryOf cert with
  | compressed => exact absurd hentry hcert
  | cached | common => rfl

theorem readCerts_of_unknown (hcert : entryOf cert = .compressed) (slots : List (Entry × Cert)) :
    p.readCerts T (slotOf entryOf cert :: slots) st total =
      if total < T then do
        let r ← p.readCert st
        let chain ← p.readCerts T slots r.2 (total + UInt32.ofNat (4 + r.1.length))
        pure (r.1 :: chain)
      else pure ([] :: slots.map (·.2)) := by
  unfold slotOf
  rw [hcert]
  rfl

/-- While nothing is returned, only empty certificates are put in the chain. -/
theorem readCerts_of_nothing {N : ℕ} (hsize : ∀ k < N, p.size k = 0) (chain : List Cert)
    {st : Stream} (hN : st.calls + 2 * chain.length ≤ N) (total : UInt32)
    (hcerts : p.readCerts T (chain.map (slotOf entryOf)) st total = .ok certs) :
    certs = (chain.map (slotOf entryOf)).map (·.2) := by
  induction chain generalizing st total certs with
  | nil =>
    rw [map_nil, ReadPlan.readCerts] at hcerts
    split_ifs at hcerts
    · obtain ⟨_, -, hthrow⟩ := except_bind_eq_ok hcerts
      exact absurd hthrow (by simp [throw, throwThe, MonadExceptOf.throw])
    · exact (Except.ok.inj hcerts).symm
  | cons cert chain ih =>
    rw [length_cons] at hN
    rw [map_cons, map_cons]
    rw [map_cons] at hcerts
    by_cases hcert : entryOf cert = .compressed
    · rw [readCerts_of_unknown hcert] at hcerts
      have hslot : (slotOf entryOf cert).2 = [] := if_pos hcert
      rw [hslot]
      split_ifs at hcerts
      · obtain ⟨r, hr, hcerts⟩ := except_bind_eq_ok hcerts
        obtain rfl := p.readCert_of_nothing (hsize _ (by omega)) hr
        obtain ⟨certs', hcerts', hpure⟩ := except_bind_eq_ok hcerts
        rw [← Except.ok.inj hpure, ih (by dsimp only; omega) _ hcerts']
      · exact (Except.ok.inj hcerts).symm
    · rw [readCerts_of_known hcert] at hcerts
      have hslot : (slotOf entryOf cert).2 = cert := if_neg hcert
      obtain ⟨certs', hcerts', hpure⟩ := except_bind_eq_ok hcerts
      rw [hslot, ← Except.ok.inj hpure, ih (by omega) _ hcerts']

/-- The certificates to read. -/
abbrev toRead (entryOf : Cert → Entry) (chain : List Cert) : List Cert :=
  chain.filter fun cert => entryOf cert = .compressed

variable {chain : List Cert}

theorem toRead_of_unknown (hcert : entryOf cert = .compressed) :
    toRead entryOf (cert :: chain) = cert :: toRead entryOf chain := by
  simp [hcert]

theorem toRead_of_known (hcert : entryOf cert ≠ .compressed) :
    toRead entryOf (cert :: chain) = toRead entryOf chain := by
  simp [hcert]

theorem ReadPlan.Fills.readCerts (hp : p.Fills) (chain : List Cert) (k : ℕ)
    (htotal : total.toNat + totalUncompressedLen (toRead entryOf chain) = T.toNat) :
    p.readCerts T (chain.map (slotOf entryOf))
      ⟨(toRead entryOf chain).flatMap certBytes, k⟩ total = .ok chain := by
  induction chain generalizing k total with
  | nil =>
    have hge : ¬total < T := by
      rw [UInt32.lt_iff_toNat_lt]
      simp [totalUncompressedLen] at htotal
      omega
    rw [map_nil, ReadPlan.readCerts, if_neg hge]
    rfl
  | cons cert chain ih =>
    rw [map_cons]
    by_cases hcert : entryOf cert = .compressed
    · have hT := T.toNat_lt
      rw [toRead_of_unknown hcert] at htotal ⊢
      rw [totalUncompressedLen, map_cons, sum_cons, ← totalUncompressedLen] at htotal
      have hlt : total < T := by
        rw [UInt32.lt_iff_toNat_lt]
        omega
      rw [readCerts_of_unknown hcert, if_pos hlt, flatMap_cons,
        hp.readCert (by omega), except_ok_bind]
      dsimp only
      rw [ih]
      · rfl
      · rw [UInt32.toNat_add, UInt32.toNat_ofNat']
        omega
    · rw [toRead_of_known hcert] at htotal ⊢
      rw [readCerts_of_known hcert, ih k htotal]
      rfl

theorem toNat_add_four {T : UInt32} (h : total.toNat + 4 ≤ T.toNat) :
    (total + UInt32.ofNat 4).toNat = total.toNat + 4 := by
  have hT := T.toNat_lt
  rw [UInt32.toNat_add, UInt32.toNat_ofNat']
  omega

/-- If all certificates to read are empty, the last length is the end of the
data. -/
theorem readCerts_of_early (hsize : ∀ k, 4 ≤ p.size k) (hearly : p.early = true)
    (chain : List Cert) (hsome : toRead entryOf chain ≠ []) (k : ℕ)
    (htotal : total.toNat + 4 * (toRead entryOf chain).length = T.toNat) :
    p.readCerts T (chain.map (slotOf entryOf))
      ⟨List.replicate (4 * (toRead entryOf chain).length) 0, k⟩ total = .error .eof := by
  induction chain generalizing k total with
  | nil => exact absurd rfl hsome
  | cons cert chain ih =>
    rw [map_cons]
    by_cases hcert : entryOf cert = .compressed
    · rw [toRead_of_unknown hcert, length_cons] at htotal ⊢
      have hlt : total < T := by
        rw [UInt32.lt_iff_toNat_lt]
        omega
      rw [readCerts_of_unknown hcert, if_pos hlt]
      by_cases hrest : toRead entryOf chain = []
      · rw [hrest]
        exact congrArg (· >>= _) (p.readCert_of_early (hsize k) hearly)
      · have hpos := length_pos_iff.mpr hrest
        rw [p.readCert_of_replicate (by omega), except_ok_bind, Nat.min_eq_left (hsize k)]
        have hnext := toNat_add_four (show total.toNat + 4 ≤ T.toNat by omega)
        exact congrArg (· >>= _) (ih hrest (k + 2) (by
          rw [length_nil, hnext]
          omega))
    · rw [toRead_of_known hcert] at hsome htotal ⊢
      rw [readCerts_of_known hcert, ih hsome k htotal]
      rfl

/-- As long as more zeros are left than the loop can read, every certificate that
is read is empty. -/
theorem readCerts_of_zeros (k : ℕ) {n r : ℕ} (htotal : total.toNat + 4 * r = T.toNat)
    (hn : 4 * r < n) (hr : r ≤ (toRead entryOf chain).length) :
    p.readCerts T (chain.map (slotOf entryOf)) ⟨List.replicate n 0, k⟩ total =
      .ok ((chain.map (slotOf entryOf)).map (·.2)) := by
  induction chain generalizing k n r total with
  | nil =>
    have hge : ¬total < T := by
      rw [UInt32.lt_iff_toNat_lt]
      simp at hr
      omega
    rw [map_nil, ReadPlan.readCerts, if_neg hge]
    rfl
  | cons cert chain ih =>
    rw [map_cons, map_cons]
    by_cases hcert : entryOf cert = .compressed
    · have hslot : (slotOf entryOf cert).2 = [] := if_pos hcert
      rw [toRead_of_unknown hcert, length_cons] at hr
      rw [readCerts_of_unknown hcert, hslot]
      split_ifs with hlt
      · rw [UInt32.lt_iff_toNat_lt] at hlt
        obtain ⟨r, rfl⟩ := Nat.exists_eq_succ_of_ne_zero (show r ≠ 0 by omega)
        have hnext := toNat_add_four (show total.toNat + 4 ≤ T.toNat by omega)
        rw [p.readCert_of_replicate (by omega), except_ok_bind]
        have hrec : p.readCerts T (chain.map (slotOf entryOf))
            ⟨List.replicate (n - min 4 (p.size k)) 0, k + 2⟩
            (total + UInt32.ofNat 4) = _ :=
          ih (k + 2) (r := r) (by omega) (by omega) (by omega)
        exact congrArg (· >>= _) hrec
      · rfl
    · have hslot : (slotOf entryOf cert).2 = cert := if_neg hcert
      rw [toRead_of_known hcert] at hr
      rw [readCerts_of_known hcert, hslot, ih k htotal hn hr]
      rfl

theorem flatMap_certBytes_of_empty (hempty : ∀ cert ∈ certs, cert = []) :
    certs.flatMap certBytes = List.replicate (4 * certs.length) 0 := by
  induction certs with
  | nil => rfl
  | cons cert certs ih =>
    rw [forall_mem_cons] at hempty
    rw [flatMap_cons, ih hempty.2, hempty.1, length_cons, Nat.mul_succ,
      Nat.add_comm, ← replicate_append_replicate]
    rfl

theorem totalUncompressedLen_of_empty (hempty : ∀ cert ∈ certs, cert = []) :
    totalUncompressedLen certs = 4 * certs.length := by
  induction certs with
  | nil => rfl
  | cons cert certs ih =>
    rw [forall_mem_cons] at hempty
    rw [totalUncompressedLen, map_cons, sum_cons,
      ← totalUncompressedLen, ih hempty.2, hempty.1, length_nil,
      length_cons]
    omega

end Loop

end Pstream.Crypto
