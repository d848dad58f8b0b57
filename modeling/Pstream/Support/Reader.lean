import Pstream.Support.Fallible
import Mathlib.Data.Nat.Digits.Defs

/-!
# Reading bytes

A reader takes bytes from the front of its input and fails with an error of its
own when something is wrong.  The rules here prove, step by step along the text
of a reader, what holds of every value that it returns; that what is left is the
end of the input comes with each of them.
-/

namespace Pstream.Support

open List

variable {ε α β : Type}

/-- A computation that reads bytes. -/
abbrev Reader (ε : Type) := EStateM ε (List UInt8)

namespace Reader

/-- Read one byte; `eof` is the error at the end of the input. -/
def byte (eof : ε) : Reader ε UInt8
  | [] => .error eof []
  | b :: bs => .ok b bs

def bytes (eof : ε) : ℕ → Reader ε (List UInt8)
  | 0 => pure []
  | n + 1 => do pure ((← byte eof) :: (← bytes eof n))

/-- Fail if `c` holds. -/
def refuse (c : Prop) [Decidable c] (err : ε) : Reader ε Unit := if c then throw err else pure ()

/-- Read with `x` if `c` holds; otherwise the value is `a`. -/
def readIf (c : Prop) [Decidable c] (x : Reader ε α) (a : α) : Reader ε α := if c then x else pure a

/-- Run the body of a loop `n` times. -/
def iterate (body : α → Reader ε α) : ℕ → α → Reader ε α
  | 0, a => pure a
  | n + 1, a => body a >>= iterate body n

/-! ## The value of some bytes -/

inductive ByteOrder
  | littleEndian
  | bigEndian
deriving DecidableEq, Repr

/-- The number written as `bs`. -/
def ByteOrder.value (order : ByteOrder) (bs : List UInt8) : ℕ :=
  Nat.ofDigits 256 (((match order with
    | .littleEndian => bs
    | .bigEndian => bs.reverse)).map UInt8.toNat)

def uint (order : ByteOrder) (eof : ε) (n : ℕ) : Reader ε ℕ := order.value <$> bytes eof n

/-! ## What holds of the values read -/

/-- Whatever the reader returns meets `Q`, and what is left of the input is the
end of it. -/
def Reads (x : Reader ε α) (Q : α → Prop) : Prop := ∀ ⦃s a s'⦄, x s = .ok a s' → s' <:+ s ∧ Q a

/-- As `Reads`, and at least one byte is read. -/
def ReadsSome (x : Reader ε α) (Q : α → Prop) : Prop :=
  ∀ ⦃s a s'⦄, x s = .ok a s' → s' <:+ s ∧ s'.length < s.length ∧ Q a

variable {x : Reader ε α} {Q P : α → Prop} {a : α} {f : α → Reader ε β} {c : Prop}

theorem ReadsSome.reads (h : ReadsSome x Q) : Reads x Q := fun _ _ _ hx => ⟨(h hx).1, (h hx).2.2⟩

theorem Reads.imp (h : Reads x P) (hPQ : ∀ a, P a → Q a) : Reads x Q :=
  fun _ a _ hx => ⟨(h hx).1, hPQ a (h hx).2⟩

theorem reads_pure (h : Q a) : Reads (pure a : Reader ε α) Q := by
  intro s b s' hx
  obtain ⟨rfl, rfl⟩ := pure_ok.mp hx
  exact ⟨suffix_rfl, h⟩

theorem reads_throw {e : ε} : Reads (throw e : Reader ε α) Q :=
  fun _ _ _ hx => (throw_ok.mp hx).elim

theorem reads_get : Reads (get : Reader ε (List UInt8)) fun _ => True := by
  intro s a s' hx
  obtain ⟨-, rfl⟩ := get_ok.mp hx
  exact ⟨suffix_rfl, trivial⟩

theorem Reads.bind {Q : β → Prop} (hx : Reads x P)
    (hf : ∀ a, P a → Reads (f a) Q) : Reads (x >>= f) Q := by
  intro s b s' h
  obtain ⟨a, s₁, ha, hb⟩ := bind_ok.mp h
  obtain ⟨hsuffix, hP⟩ := hx ha
  obtain ⟨hsuffix', hQ⟩ := hf a hP hb
  exact ⟨hsuffix'.trans hsuffix, hQ⟩

theorem Reads.seq {Q : β → Prop} (hx : Reads x fun _ => True)
    (hf : ∀ a, Reads (f a) Q) : Reads (x >>= f) Q :=
  hx.bind fun a _ => hf a

theorem Reads.map {f : α → β} {Q : β → Prop} (hx : Reads x fun a => Q (f a)) : Reads (f <$> x) Q :=
  hx.bind fun _ h => reads_pure h

theorem reads_ite [Decidable c] {y : Reader ε α} (hx : c → Reads x Q)
    (hy : ¬c → Reads y Q) : Reads (if c then x else y) Q := by
  split_ifs with hc
  · exact hx hc
  · exact hy hc

theorem reads_refuse (c : Prop) [Decidable c] (err : ε) : Reads (refuse c err) fun _ => ¬c :=
  reads_ite (fun _ => reads_throw) fun hc => reads_pure hc

theorem Reads.readIf [Decidable c] (hx : c → Reads x Q) (ha : ¬c → Q a) : Reads (readIf c x a) Q :=
  reads_ite hx fun hc => reads_pure (ha hc)

theorem readsSome_byte (eof : ε) : ReadsSome (byte eof) fun _ => True := by
  rintro (_ | ⟨b, bs⟩) a s' hx
  · cases hx
  · cases hx
    exact ⟨suffix_cons _ _, Nat.lt_succ_self _, trivial⟩

theorem reads_byte (eof : ε) : Reads (byte eof) fun _ => True := (readsSome_byte eof).reads

theorem ReadsSome.bind {Q : β → Prop} (hx : ReadsSome x P)
    (hf : ∀ a, P a → Reads (f a) Q) : ReadsSome (x >>= f) Q := by
  intro s b s' h
  obtain ⟨a, s₁, ha, hb⟩ := bind_ok.mp h
  obtain ⟨hsuffix, hlt, hP⟩ := hx ha
  obtain ⟨hsuffix', hQ⟩ := hf a hP hb
  exact ⟨hsuffix'.trans hsuffix, hsuffix'.length_le.trans_lt hlt, hQ⟩

theorem ReadsSome.map {f : α → β} {Q : β → Prop}
    (hx : ReadsSome x fun a => Q (f a)) : ReadsSome (f <$> x) Q :=
  hx.bind fun _ h => reads_pure h

theorem ReadsSome.imp (h : ReadsSome x P) (hPQ : ∀ a, P a → Q a) : ReadsSome x Q :=
  fun _ a _ hx => ⟨(h hx).1, (h hx).2.1, hPQ a (h hx).2.2⟩

theorem readsSome_throw {e : ε} : ReadsSome (throw e : Reader ε α) Q :=
  fun _ _ _ hx => (throw_ok.mp hx).elim

theorem readsSome_ite [Decidable c] {y : Reader ε α} (hx : ReadsSome x Q)
    (hy : ReadsSome y Q) : ReadsSome (if c then x else y) Q := by
  split_ifs
  · exact hx
  · exact hy

theorem reads_bytes (eof : ε) (n : ℕ) : Reads (bytes eof n) fun bs => bs.length = n := by
  induction n with
  | zero => exact reads_pure rfl
  | succ n ih =>
    refine (reads_byte eof).seq fun b => ih.bind fun bs hbs => ?_
    exact reads_pure (congrArg Nat.succ hbs)

theorem ByteOrder.value_lt (order : ByteOrder) (bs : List UInt8) :
    order.value bs < 256 ^ bs.length := by
  have hlt (cs : List UInt8) : Nat.ofDigits 256 (cs.map UInt8.toNat) < 256 ^ cs.length := by
    have h := Nat.ofDigits_lt_base_pow_length (b := 256)
      (l := cs.map UInt8.toNat) (by decide) fun d hd => by
        obtain ⟨c, -, rfl⟩ := mem_map.mp hd
        exact c.toNat_lt
    rwa [length_map] at h
  cases order with
  | littleEndian => exact hlt bs
  | bigEndian =>
    have h := hlt bs.reverse
    rwa [length_reverse] at h

theorem reads_uint (order : ByteOrder) (eof : ε) (n : ℕ) :
    Reads (uint order eof n) fun v => v < 256 ^ n := by
  refine ((reads_bytes eof n).imp fun bs hbs => ?_).map
  rw [← hbs]
  exact order.value_lt bs

/-- A loop keeps what its body keeps; `I k` holds after `k` rounds. -/
theorem reads_iterate {f : α → Reader ε α} {I : ℕ → α → Prop}
    (hbody : ∀ k a, I k a → Reads (f a) (I (k + 1))) (n : ℕ) {k : ℕ} (h : I k a) :
    Reads (iterate f n a) (I (k + n)) := by
  induction n generalizing k a with
  | zero => exact reads_pure h
  | succ n ih =>
    refine (hbody k a h).bind fun b hb => ?_
    rw [Nat.add_succ, ← Nat.succ_add]
    exact ih hb

/-! ## Failures that a reader avoids -/

section Never

variable {bad : ε → Prop}

/-- On no input the reader has any of the failures in `bad`. -/
def Never (bad : ε → Prop) (x : Reader ε α) : Prop := ∀ s, Avoids bad x s

theorem never_pure (a : α) : Never bad (pure a : Reader ε α) := fun s => avoids_pure a s

variable {x : Reader ε α} {c : Prop} {eof : ε}

theorem Never.bind {f : α → Reader ε β} (hx : Never bad x)
    (hf : ∀ a, Never bad (f a)) : Never bad (x >>= f) :=
  fun s => (hx s).bind fun a s' => hf a s'

theorem Never.bind_reads {f : α → Reader ε β} {P : α → Prop} (hx : Never bad x) (hP : Reads x P)
    (hf : ∀ a, P a → Never bad (f a)) : Never bad (x >>= f) := by
  intro s
  apply avoids_bind.mpr
  constructor
  · exact hx s
  · intro a s' h
    exact hf a (hP h).2 s'

theorem Never.map (hx : Never bad x) (f : α → β) : Never bad (f <$> x) :=
  fun s => (avoids_map f x s).mpr (hx s)

theorem never_ite [Decidable c] {y : Reader ε α} (hx : c → Never bad x)
    (hy : ¬c → Never bad y) : Never bad (if c then x else y) := by
  split_ifs with hc
  · exact hx hc
  · exact hy hc

theorem never_refuse [Decidable c] {err : ε} (h : ¬bad err) : Never bad (refuse c err) :=
  never_ite (fun _ s => (avoids_throw err s).mpr h) fun _ => never_pure ()

theorem Never.readIf [Decidable c] {a : α} (hx : Never bad x) : Never bad (readIf c x a) :=
  never_ite (fun _ => hx) fun _ => never_pure a

theorem never_byte (h : ¬bad eof) : Never bad (byte eof) := by
  rintro (_ | ⟨b, s⟩) e s' ⟨⟩
  exact h

theorem never_bytes (h : ¬bad eof) (n : ℕ) : Never bad (bytes eof n) := by
  induction n with
  | zero => exact never_pure []
  | succ n ih =>
    exact (never_byte h).bind fun b => ih.bind fun bs => never_pure (b :: bs)

theorem never_uint (order : ByteOrder) (h : ¬bad eof) (n : ℕ) : Never bad (uint order eof n) :=
  (never_bytes h n).map order.value

theorem never_iterate {f : α → Reader ε α} (hf : ∀ a, Never bad (f a)) (n : ℕ)
    (a : α) : Never bad (iterate f n a) := by
  induction n generalizing a with
  | zero => exact never_pure a
  | succ n ih => exact (hf a).bind ih

end Never

end Reader

end Pstream.Support
