import Mathlib
import WasmBackend.Wasm.Module

/-!
# Reading the binary format

A reader takes what it reads from the front of some bytes and leaves the rest.  `Reads r bytes a`
says that `r` takes exactly `bytes` for `a`, whatever follows; readers put together take what their
parts take one after the other.  The readers of numbers are those of the format, bounded in the bits
a number may have; the encoders of `WasmBackend.Wasm.Leb128` are read back by them.
-/

namespace WasmBackend.Wasm

/-- Takes a value from the front of some bytes; none when it is not there. -/
abbrev Reader := StateT (List UInt8) Option

/-- The reader takes exactly `bytes` for `a`, whatever follows. -/
def Reads {α : Type} (r : Reader α) (bytes : List UInt8) (a : α) : Prop :=
  ∀ rest, r.run (bytes ++ rest) = some (a, rest)

section Rules

variable {α β : Type} {r : Reader α} {f : α → Reader β} {bytes more : List UInt8} {a : α} {b : β}

theorem Reads.pure : Reads (pure a) [] a := fun _ ↦ rfl

theorem Reads.bind (h : Reads r bytes a) (hf : Reads (f a) more b) :
    Reads (r >>= f) (bytes ++ more) b := by
  intro rest
  rw [List.append_assoc, StateT.run_bind, h (more ++ rest)]
  exact hf rest

theorem Reads.map {g : α → β} (h : Reads r bytes a) : Reads (g <$> r) bytes (g a) := by
  intro rest
  rw [StateT.run_map, h rest]
  rfl

/-- The last reader of several decides what is read. -/
theorem Reads.bind_pure (h : Reads r bytes a) (hf : Reads (f a) [] b) :
    Reads (r >>= f) bytes b := by
  simpa using h.bind hf

/-- What is read does not depend on how its bytes are written down. -/
theorem Reads.of_eq (h : Reads r bytes a) (heq : bytes = more) : Reads r more a :=
  heq ▸ h

theorem Reads.run (h : Reads r bytes a) : r.run bytes = some (a, []) := by
  simpa using h []

end Rules

namespace Reader

/-! ## Bytes -/

/-- The next byte. -/
def byte : Reader UInt8
  | [] => none
  | b :: rest => some (b, rest)

/-- The next byte, which has to be this one. -/
def exactly (expected : UInt8) : Reader Unit := do
  let b ← byte
  if b = expected then return else failure

/-- The next bytes. -/
def bytes (n : Nat) : Reader (List UInt8) :=
  fun input ↦ if n ≤ input.length then some (input.splitAt n) else none

theorem reads_byte (b : UInt8) : Reads byte [b] b := fun _ ↦ rfl

theorem reads_exactly (b : UInt8) : Reads (exactly b) [b] () := by
  refine (reads_byte b).bind_pure ?_
  rw [if_pos rfl]
  exact .pure

theorem reads_bytes (content : List UInt8) : Reads (bytes content.length) content content := by
  intro rest
  show (if _ then _ else _) = _
  rw [if_pos (by simp), List.splitAt_eq, List.take_left, List.drop_left]

/-! ## Numbers -/

/-- An unsigned number of at most `bits` bits. -/
def unsigned : Nat → Reader Nat
  | _, [] => none
  | bits, b :: rest =>
    if b.toNat < 128 then
      if b.toNat < 2 ^ bits then some (b.toNat, rest) else none
    else if 7 < bits then
      (unsigned (bits - 7) rest).map fun (high, rest) ↦ (128 * high + (b.toNat - 128), rest)
    else none

/-- A signed number of at most `bits` bits, the sign included. -/
def signed : Nat → Reader Int
  | _, [] => none
  | bits, b :: rest =>
    if b.toNat < 64 then
      if b.toNat < 2 ^ (bits - 1) then some (b.toNat, rest) else none
    else if b.toNat < 128 then
      if 128 ≤ b.toNat + 2 ^ (bits - 1) then some (b.toNat - 128, rest) else none
    else if 7 < bits then
      (signed (bits - 7) rest).map fun (high, rest) ↦ (128 * high + (b.toNat - 128), rest)
    else none

/-- The value of bytes of which the lowest comes first. -/
def ofLittleEndian : List UInt8 → Nat
  | [] => 0
  | b :: rest => b.toNat + 256 * ofLittleEndian rest

/-- The numbers the format writes counts and positions with. -/
abbrev u32 : Reader Nat := unsigned 32

/-! ## Sequences -/

/-- So many values one after the other. -/
def times {α : Type} (r : Reader α) : Nat → Reader (List α)
  | 0 => return []
  | n + 1 => do
    let a ← r
    let rest ← times r n
    return a :: rest

/-- Values behind their number. -/
def vector {α : Type} (r : Reader α) : Reader (List α) := do
  times r (← u32)

/-- A value that takes all of some bytes. -/
def whole {α : Type} (r : Reader α) (content : List UInt8) : Option α :=
  match r.run content with
  | some (a, []) => some a
  | _ => none

/-- A value behind the number of its bytes, which has to take them all. -/
def sized {α : Type} (r : Reader α) : Reader α := do
  let content ← bytes (← u32)
  (whole r content).elim failure pure

end Reader

/-- The entry of a key, where no key stands twice. -/
theorem lookup_eq_some_iff_mem {α β : Type} [BEq α] [LawfulBEq α] {entries : List (α × β)}
    (h : (entries.map Prod.fst).Nodup) {key : α} {value : β} :
    entries.lookup key = some value ↔ (key, value) ∈ entries := by
  rw [List.lookup_eq_some_iff]
  constructor
  · rintro ⟨before, behind, rfl, -⟩
    simp
  · intro hmem
    obtain ⟨before, behind, rfl⟩ := List.append_of_mem hmem
    refine ⟨before, behind, rfl, fun e he ↦ ?_⟩
    rw [List.map_append] at h
    rw [bne_iff_ne]
    exact (List.nodup_append.mp h).2.2 e.1 (List.mem_map_of_mem he) key (by simp) |>.symm

/-! ## Encoded numbers are read back -/

theorem toNat_toUInt8 {n : Nat} (h : n < 256) : n.toUInt8.toNat = n := by
  simpa using h

theorem two_pow_eq_mul {bits : Nat} (h : 7 ≤ bits) : 2 ^ bits = 128 * 2 ^ (bits - 7) := by
  obtain ⟨k, rfl⟩ := Nat.exists_eq_add_of_le h
  rw [Nat.add_sub_cancel_left, pow_add]
  norm_num

/-- A bound that the number does not reach with its first seven bits has more than seven. -/
theorem lt_bits_of_le {bits n : Nat} (hn : 128 ≤ n) (h : n < 2 ^ bits) : 7 < bits := by
  by_contra hle
  have : 2 ^ bits ≤ 2 ^ 7 := Nat.pow_le_pow_right (by norm_num) (by omega)
  omega

theorem reads_unsigned {n bits : Nat} (h : n < 2 ^ bits) :
    Reads (Reader.unsigned bits) (Leb128.unsigned n) n := by
  induction n using Leb128.unsigned.induct generalizing bits with
  | case1 n hn =>
    intro rest
    rw [Leb128.unsigned, if_pos hn]
    show Reader.unsigned bits (n.toUInt8 :: rest) = _
    rw [Reader.unsigned, toNat_toUInt8 (by omega), if_pos hn, if_pos h]
  | case2 n hn ih =>
    have hbits : 7 < bits := lt_bits_of_le (by omega) h
    have hhigh : n / 128 < 2 ^ (bits - 7) := by
      rw [two_pow_eq_mul hbits.le] at h
      omega
    intro rest
    rw [Leb128.unsigned, if_neg hn]
    have hrest : Reader.unsigned (bits - 7) (Leb128.unsigned (n / 128) ++ rest) =
      some (n / 128, rest) := ih hhigh rest
    show Reader.unsigned bits ((n % 128 + 128).toUInt8 :: (Leb128.unsigned (n / 128) ++ rest)) = _
    rw [Reader.unsigned, toNat_toUInt8 (by omega), if_neg (by omega), if_pos hbits, hrest]
    simp only [Option.map_some, Option.some.injEq, Prod.mk.injEq, and_true]
    omega

theorem signOnly_iff {low rest : Int} :
    Leb128.signOnly low rest = true ↔ rest = 0 ∧ low < 64 ∨ rest = -1 ∧ 64 ≤ low := by
  simp [Leb128.signOnly]

/-- A number whose rest does not only repeat its sign has more than seven bits. -/
theorem lt_bits_of_not_signOnly {bits : Nat} {n : Int} (hlow : -2 ^ (bits - 1) ≤ n)
    (hhigh : n < 2 ^ (bits - 1)) (h : ¬Leb128.signOnly (n % 128) (n / 128)) : 7 < bits := by
  rw [signOnly_iff] at h
  by_contra hle
  have : (2 : Int) ^ (bits - 1) ≤ 2 ^ 6 := pow_le_pow_right₀ (by norm_num) (by omega)
  omega

theorem reads_signed {n : Int} {bits : Nat} (hlow : -2 ^ (bits - 1) ≤ n)
    (hhigh : n < 2 ^ (bits - 1)) : Reads (Reader.signed bits) (Leb128.signed n) n := by
  induction n using Leb128.signed.induct generalizing bits with
  | case1 n hn =>
    intro rest
    rw [Leb128.signed, if_pos hn]
    rw [signOnly_iff] at hn
    have hbyte : ((n % 128).toNat.toUInt8.toNat : Int) = n % 128 := by
      rw [toNat_toUInt8 (by omega)]
      omega
    show Reader.signed bits ((n % 128).toNat.toUInt8 :: rest) = _
    rw [Reader.signed]
    obtain ⟨hrest, hsign⟩ | ⟨hrest, hsign⟩ := hn
    · rw [if_pos (by omega), if_pos (by zify; omega)]
      simp only [Option.some.injEq, Prod.mk.injEq, and_true]
      omega
    · rw [if_neg (by omega), if_pos (by omega), if_pos (by zify; omega)]
      simp only [Option.some.injEq, Prod.mk.injEq, and_true]
      omega
  | case2 n hn ih =>
    have hbits : 7 < bits := lt_bits_of_not_signOnly hlow hhigh hn
    have hpow : (2 : Int) ^ (bits - 1) = 128 * 2 ^ (bits - 7 - 1) := by
      have := two_pow_eq_mul (show 7 ≤ bits - 1 by omega)
      rw [show bits - 7 - 1 = bits - 1 - 7 by omega]
      exact_mod_cast this
    rw [hpow] at hlow hhigh
    intro rest
    rw [Leb128.signed, if_neg hn]
    have hrest : Reader.signed (bits - 7) (Leb128.signed (n / 128) ++ rest) =
      some (n / 128, rest) := ih (by omega) (by omega) rest
    have hbyte : ((n % 128 + 128).toNat.toUInt8.toNat : Int) = n % 128 + 128 := by
      rw [toNat_toUInt8 (by omega)]
      omega
    show Reader.signed bits
      ((n % 128 + 128).toNat.toUInt8 :: (Leb128.signed (n / 128) ++ rest)) = _
    rw [Reader.signed, if_neg (by omega), if_neg (by omega), if_pos hbits, hrest]
    simp only [Option.map_some, Option.some.injEq, Prod.mk.injEq, and_true]
    omega

theorem littleEndian_succ (count n : Nat) :
    littleEndian (count + 1) n = n.toUInt8 :: littleEndian count (n / 256) := by
  unfold littleEndian
  rw [List.range_succ_eq_map, List.map_cons, List.map_map]
  congr 1
  apply List.map_congr_left
  intro i _
  simp only [Function.comp_apply, Nat.succ_eq_add_one]
  congr 1
  rw [show 8 * (i + 1) = 8 + 8 * i by omega, Nat.shiftRight_add, Nat.shiftRight_eq_div_pow n 8]

theorem ofLittleEndian_littleEndian {count n : Nat} (h : n < 256 ^ count) :
    Reader.ofLittleEndian (littleEndian count n) = n := by
  induction count generalizing n with
  | zero =>
    rw [pow_zero] at h
    have : n = 0 := by omega
    subst this
    rfl
  | succ count ih =>
    rw [pow_succ] at h
    rw [littleEndian_succ, Reader.ofLittleEndian, ih (by omega)]
    have : n.toUInt8.toNat = n % 256 := by simp
    omega

theorem length_littleEndian (count n : Nat) : (littleEndian count n).length = count := by
  simp [littleEndian]

/-! ## Encoded sequences are read back -/

/-- The bound on counts and positions. -/
abbrev u32Bound : Nat := 2 ^ 32

section Sequences

variable {α β : Type} {r : Reader α}

theorem reads_times {encode : β → List UInt8} {value : β → α} {xs : List β}
    (h : ∀ x ∈ xs, Reads r (encode x) (value x)) :
    Reads (Reader.times r xs.length) (xs.flatMap encode) (xs.map value) := by
  induction xs with
  | nil => exact .pure
  | cons x xs ih =>
    rw [List.flatMap_cons]
    refine (h x (by simp)).bind ?_
    refine (ih fun y hy ↦ h y (by simp [hy])).bind_pure ?_
    exact .pure

theorem reads_vector {encode : β → List UInt8} {value : β → α} {xs : List β}
    (hlength : xs.length < u32Bound) (h : ∀ x ∈ xs, Reads r (encode x) (value x)) :
    Reads (Reader.vector r) (encodeVector encode xs) (xs.map value) :=
  (reads_unsigned hlength).bind (reads_times h)

/-- A vector of values whose readers give the values themselves. -/
theorem reads_vector_self {encode : α → List UInt8} {xs : List α}
    (hlength : xs.length < u32Bound) (h : ∀ x ∈ xs, Reads r (encode x) x) :
    Reads (Reader.vector r) (encodeVector encode xs) xs := by
  have hvector : Reads (Reader.vector r) (encodeVector encode xs) (xs.map id) :=
    reads_vector hlength h
  rwa [List.map_id] at hvector

theorem whole_eq {content : List UInt8} {a : α} (h : Reads r content a) :
    Reader.whole r content = some a := by
  rw [Reader.whole, h.run]

theorem reads_sized {content : List UInt8} {a : α} (hlength : content.length < u32Bound)
    (h : Reads r content a) : Reads (Reader.sized r) (encodeBytes content) a := by
  refine (reads_unsigned hlength).bind ?_
  refine (Reader.reads_bytes content).bind_pure ?_
  rw [whole_eq h]
  exact .pure

end Sequences

end WasmBackend.Wasm
