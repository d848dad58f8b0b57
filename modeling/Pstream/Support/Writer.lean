import Pstream.Support.Reader

/-!
# Writing bytes

The bytes of a number, and rules that follow the text of a reader along the bytes
that a writer has produced.
-/

namespace Pstream.Support

open List

namespace Reader

variable {ε α β γ : Type}

/-! ## The bytes of a number -/

/-- The lowest `n` bytes of a number, the lowest one first. -/
def lowBytes : ℕ → ℕ → List UInt8
  | 0, _ => []
  | n + 1, v => UInt8.ofNat v :: lowBytes n (v / 256)

/-- A number in `n` bytes; what does not fit is cut off. -/
def ByteOrder.bytes (order : ByteOrder) (n v : ℕ) : List UInt8 :=
  match order with
  | .littleEndian => lowBytes n v
  | .bigEndian => (lowBytes n v).reverse

@[simp] theorem length_lowBytes (n v : ℕ) : (lowBytes n v).length = n := by
  induction n generalizing v with
  | zero => rfl
  | succ n ih => rw [lowBytes, length_cons, ih]

variable (order : ByteOrder) (n : ℕ) (eof : ε) (v : ℕ)

@[simp] theorem ByteOrder.length_bytes : (order.bytes n v).length = n := by
  cases order with
  | littleEndian => exact length_lowBytes n v
  | bigEndian => exact length_reverse.trans (length_lowBytes n v)

theorem ofDigits_lowBytes (n v : ℕ) :
    Nat.ofDigits 256 ((lowBytes n v).map UInt8.toNat) = v % 256 ^ n := by
  induction n generalizing v with
  | zero => simp [lowBytes, Nat.mod_one]
  | succ n ih =>
    have hlow : (UInt8.ofNat v).toNat = v % 256 := UInt8.toNat_ofNat'
    rw [lowBytes, map_cons, Nat.ofDigits_cons, ih, hlow, Nat.pow_succ,
      Nat.mul_comm (256 ^ n), Nat.mod_mul]

theorem ByteOrder.value_bytes : order.value (order.bytes n v) = v % 256 ^ n := by
  cases order with
  | littleEndian => exact ofDigits_lowBytes n v
  | bigEndian =>
    rw [ByteOrder.value, ByteOrder.bytes, reverse_reverse]
    exact ofDigits_lowBytes n v

/-! ## Reading what has been written -/

/-- On `bs` followed by `rest` the reader returns `a` and leaves `rest`. -/
def Decodes (x : Reader ε α) (bs rest : List UInt8) (a : α) : Prop := x (bs ++ rest) = .ok a rest

theorem decodes_pure (a : α) (rest : List UInt8) : Decodes (pure a : Reader ε α) [] rest a := rfl

variable {x : Reader ε α} {f : α → Reader ε β} {bs rest : List UInt8} {a : α}
  {b : β} {n : ℕ} {c : Prop} {bad : ε → Prop}

theorem Decodes.nil (hx : Decodes x bs [] a) : x bs = .ok a [] := by
  rwa [Decodes, List.append_nil] at hx

theorem Decodes.bind {cs : List UInt8} (hx : Decodes x bs (cs ++ rest) a)
    (hf : Decodes (f a) cs rest b) : Decodes (x >>= f) (bs ++ cs) rest b := by
  unfold Decodes
  rwa [append_assoc, bind_of_ok hx]

theorem Decodes.last (hx : Decodes x bs rest a) (hf : Decodes (f a) [] rest b) :
    Decodes (x >>= f) bs rest b := by
  rw [← append_nil bs]
  exact Decodes.bind hx hf

theorem Decodes.map (hx : Decodes x bs rest a) (f : α → β) : Decodes (f <$> x) bs rest (f a) :=
  bind_of_ok hx

theorem Decodes.skip (hx : ∀ s, x s = .ok a s) (hf : Decodes (f a) bs rest b) :
    Decodes (x >>= f) bs rest b := by
  unfold Decodes
  rwa [bind_of_ok (hx _)]

theorem decodes_byte (b : UInt8) (rest : List UInt8) : Decodes (byte eof) [b] rest b :=
  rfl

theorem Decodes.byte {eof : ε} {f : UInt8 → Reader ε β} {b : UInt8} {c : β}
    (hf : Decodes (f b) bs rest c) : Decodes (byte eof >>= f) (b :: bs) rest c :=
  (decodes_byte eof b (bs ++ rest)).bind hf

theorem decodes_bytes (bs rest : List UInt8) : Decodes (bytes eof bs.length) bs rest bs := by
  induction bs with
  | nil => rfl
  | cons b bs ih => exact Decodes.byte (ih.map (b :: ·))

/-- Of a number that does not fit only the lowest bytes are read back. -/
theorem decodes_uint_mod (n v : ℕ) (rest : List UInt8) :
    Decodes (uint order eof n) (order.bytes n v) rest (v % 256 ^ n) := by
  have hbytes := decodes_bytes eof (order.bytes n v) rest
  rw [order.length_bytes] at hbytes
  have hmap := hbytes.map order.value
  rwa [order.value_bytes] at hmap

theorem decodes_uint {v : ℕ} (hv : v < 256 ^ n) (rest : List UInt8) :
    Decodes (uint order eof n) (order.bytes n v) rest v := by
  have hmod := decodes_uint_mod order eof n v rest
  rwa [Nat.mod_eq_of_lt hv] at hmod

theorem decodes_readIf [Decidable c] {b : α} (hx : c → Decodes x bs rest b) :
    Decodes (readIf c x a) (if c then bs else []) rest (if c then b else a) := by
  unfold readIf
  split_ifs with hc
  · exact hx hc
  · exact decodes_pure a rest

theorem refuse_of_not [Decidable c] (err : ε) (hc : ¬c) (s : List UInt8) :
    refuse c err s = .ok () s := by
  rw [refuse, if_neg hc]
  rfl

theorem Decodes.refuse [Decidable c] {err : ε} {f : Unit → Reader ε β} (hc : ¬c)
    (hf : Decodes (f ()) bs rest b) : Decodes (refuse c err >>= f) bs rest b :=
  Decodes.skip (refuse_of_not err hc) hf

theorem decodes_iterate {f : α → Reader ε α} {write : γ → List UInt8} {step : α → γ → α}
    {cs : List γ} (hstep : ∀ c ∈ cs, ∀ a rest, Decodes (f a) (write c) rest (step a c)) (a : α)
    (rest : List UInt8) :
    Decodes (iterate f cs.length a) (cs.flatMap write) rest (cs.foldl step a) := by
  induction cs generalizing a with
  | nil => rfl
  | cons c cs ih =>
    have hhead := hstep c (.head _) a (cs.flatMap write ++ rest)
    have htail := ih (fun d hd => hstep d (.tail c hd)) (step a c)
    exact hhead.bind htail

/-! ## Failures of writers -/

/-- The computation does not fail in a certain way. -/
def Excludes (bad : ε → Prop) (w : Except ε α) : Prop := ∀ e, w = .error e → ¬bad e

theorem excludes_ok (bad : ε → Prop) (a : α) : Excludes bad (.ok a) := by
  intro e h
  cases h

theorem excludes_error {e : ε} (he : ¬bad e) : Excludes bad (.error e : Except ε α) := by
  rintro _ ⟨⟩
  exact he

theorem Excludes.bind {x : Except ε α} {f : α → Except ε β} (hx : Excludes bad x)
    (hf : ∀ a, Excludes bad (f a)) : Excludes bad (x >>= f) := by
  rcases x with e | a
  · exact excludes_error (hx e rfl)
  · exact hf a

theorem excludes_ite [Decidable c] {x y : Except ε α} (hx : c → Excludes bad x)
    (hy : ¬c → Excludes bad y) : Excludes bad (if c then x else y) := by
  split_ifs with hc
  · exact hx hc
  · exact hy hc

/-! ## How much is written -/

/-- If the writer succeeds, it has written `n` bytes. -/
def Emits (w : Except ε (List UInt8)) (n : ℕ) : Prop := ∀ bytes, w = .ok bytes → bytes.length = n

theorem emits_ok {bytes : List UInt8} (h : bytes.length = n) :
    Emits (.ok bytes : Except ε (List UInt8)) n := by
  rintro _ ⟨⟩
  exact h

theorem emits_error (e : ε) (n : ℕ) : Emits (.error e) n := by
  intro bytes h
  cases h

theorem Emits.bind {x : Except ε (List UInt8)} {f : List UInt8 → Except ε (List UInt8)} {m : ℕ}
    (hx : Emits x m) (hf : ∀ bytes, bytes.length = m → Emits (f bytes) n) : Emits (x >>= f) n := by
  intro bytes h
  obtain ⟨front, hfront, h⟩ := except_bind_eq_ok h
  exact hf front (hx front hfront) bytes h

theorem emits_ite [Decidable c] {x y : Except ε (List UInt8)} (hx : c → Emits x n)
    (hy : ¬c → Emits y n) : Emits (if c then x else y) n := by
  split_ifs with hc
  · exact hx hc
  · exact hy hc

theorem emits_unless [Decidable c] {e : ε} {x : Except ε (List UInt8)} (hx : ¬c → Emits x n) :
    Emits (if c then .error e else x) n :=
  emits_ite (fun _ => emits_error e n) hx

end Reader

end Pstream.Support
