import WasmBackend.Proofs.Wasm.Reading
import WasmBackend.Storage.MessagePack

/-!
# Numbers, lengths and texts are read back

What is written of numbers in their full width, lengths in the shortest header, texts, raw bytes
and moments is read back, as long as it fits its widest form.
-/

namespace WasmBackend.Storage.MessagePack

open Wasm (Reads)

/-! ## Bytes -/

theorem reads_readByte (b : UInt8) : Reads readByte [b] b := fun _ ↦ rfl

/-- A value announced by its first byte. -/
theorem reads_code {α : Type} {f : UInt8 → Reader α} {b : UInt8} {bytes : List UInt8} {a : α}
    (h : Reads (f b) bytes a) : Reads (readByte >>= f) (b :: bytes) a :=
  (reads_readByte b).bind h

theorem reads_readBytes (content : List UInt8) :
    Reads (readBytes content.length) content content := by
  intro rest
  show (if ((content ++ rest).take content.length).length = content.length then _ else _) = _
  rw [List.take_left, if_pos rfl, List.drop_left]

@[simp]
theorem length_bigEndian (count n : Nat) : (bigEndian count n).length = count := by
  simp [bigEndian]

theorem bigEndian_succ (count n : Nat) :
    bigEndian (count + 1) n = (n >>> (8 * count)).toUInt8 :: bigEndian count n := by
  simp [bigEndian, List.range_succ]

theorem foldl_bigEndian (count n acc : Nat) :
    (bigEndian count n).foldl (fun acc b ↦ acc * 256 + b.toNat) acc =
      acc * 256 ^ count + n % 256 ^ count := by
  induction count generalizing acc with
  | zero => simp [bigEndian, Nat.mod_one]
  | succ count ih =>
    have hbyte : (n >>> (8 * count)).toUInt8.toNat = n / 256 ^ count % 256 := by
      rw [Nat.shiftRight_eq_div_pow, pow_mul]
      simp
    rw [bigEndian_succ, List.foldl_cons, ih, hbyte, Nat.mod_pow_succ]
    ring

theorem reads_readWord {count n : Nat} (hn : n < 256 ^ count) :
    Reads (readWord count) (bigEndian count n) n := by
  have hbytes : Reads (readBytes count) (bigEndian count n) (bigEndian count n) := by
    simpa using reads_readBytes (bigEndian count n)
  refine hbytes.bind_pure ?_
  rw [foldl_bigEndian, Nat.mod_eq_of_lt hn, zero_mul, zero_add]
  exact .pure

/-! ## Numbers -/

/-- The widths a number may be written in. -/
def IsWidth (bytes : Nat) : Prop :=
  bytes = 1 ∨ bytes = 2 ∨ bytes = 4 ∨ bytes = 8

theorem reads_readNumber_word {bytes n : Nat} (hbytes : IsWidth bytes) (hn : n < 256 ^ bytes) :
    Reads (readByte >>= readNumber) (writeWord bytes n) n := by
  have hword : Reads (do return (← readWord bytes : Nat) : Reader Int) (bigEndian bytes n) n :=
    (reads_readWord hn).bind_pure .pure
  obtain rfl | rfl | rfl | rfl := hbytes <;> exact reads_code hword

theorem toNat_toUInt64_ofInt (n : Int) :
    ((Int64.ofInt n).toUInt64.toNat : Int) = n % 0x10000000000000000 := by
  show ((BitVec.ofInt 64 n).toNat : Int) = _
  rw [BitVec.toNat_ofInt]
  omega

theorem reads_readSigned {n : Int} (hlow : -0x8000000000000000 ≤ n)
    (hhigh : n < 0x8000000000000000) :
    Reads (readSigned 8) (bigEndian 8 (Int64.ofInt n).toUInt64.toNat) n := by
  have hword := toNat_toUInt64_ofInt n
  refine (reads_readWord (UInt64.toNat_lt _)).bind_pure ?_
  have : (if (Int64.ofInt n).toUInt64.toNat < 1 <<< (8 * 8 - 1) then
      ((Int64.ofInt n).toUInt64.toNat : Int)
    else (Int64.ofInt n).toUInt64.toNat - (1 <<< (8 * 8) : Nat)) = n := by
    simp only [Nat.shiftLeft_eq]
    split <;> omega
  rw [this]
  exact .pure

theorem reads_readNumber_int64 {n : Int} (hlow : -0x8000000000000000 ≤ n)
    (hhigh : n < 0x8000000000000000) : Reads (readByte >>= readNumber) (writeInt64 n) n :=
  reads_code (reads_readSigned hlow hhigh)

theorem reads_readBool (b : Bool) : Reads readBool [if b then 0xC3 else 0xC2] b := by
  cases b <;> exact reads_code .pure

theorem reads_readDouble (d : Double) : Reads readDouble (writeDouble d) d := by
  refine reads_code ((reads_readWord (UInt64.toNat_lt _)).bind_pure ?_)
  rw [Nat.toUInt64, UInt64.ofNat_toNat]
  exact .pure

/-! ## Lengths -/

/-- A length is written in its kind's byte or behind a code. -/
theorem writeLength_cases {n : Nat} (hn : n < 0x100000000) (small limit : Nat)
    (one : Option UInt8) (two four : UInt8) :
    (n < limit ∧ writeLength small limit one two four n = [(small + n).toUInt8]) ∨
    (∃ code ∈ one, n < 256 ^ 1 ∧ writeLength small limit one two four n = code :: bigEndian 1 n) ∨
    (n < 256 ^ 2 ∧ writeLength small limit one two four n = two :: bigEndian 2 n) ∨
    (n < 256 ^ 4 ∧ writeLength small limit one two four n = four :: bigEndian 4 n) := by
  unfold writeLength
  by_cases hlimit : n < limit
  · exact .inl ⟨hlimit, if_pos hlimit⟩
  simp only [hlimit, if_false, false_and, false_or]
  cases one with
  | none =>
    by_cases htwo : n < 65536
    · exact .inr (.inl ⟨htwo, if_pos htwo⟩)
    · exact .inr (.inr ⟨hn, if_neg htwo⟩)
  | some code =>
    by_cases hone : n < 256
    · exact .inl ⟨code, rfl, hone, if_pos hone⟩
    by_cases htwo : n < 65536
    · exact .inr (.inl ⟨htwo, by simp [hone, htwo]⟩)
    · exact .inr (.inr ⟨hn, by simp [hone, htwo]⟩)

/-- The header announces the length, and its first byte is among the codes of its kind. -/
def Announces (f : UInt8 → Reader (Option Nat)) (codes : UInt8 → Prop) (header : List UInt8)
    (n : Nat) : Prop :=
  ∃ code bytes, header = code :: bytes ∧ codes code ∧ Reads (f code) bytes (some n)

theorem Announces.reads {f : UInt8 → Reader (Option Nat)} {codes : UInt8 → Prop}
    {header : List UInt8} {n : Nat} (h : Announces f codes header n) :
    Reads (readByte >>= f) header (some n) := by
  obtain ⟨code, bytes, rfl, -, hread⟩ := h
  exact reads_code hread

/-- The code of a length that stands in the byte of its kind. -/
theorem small_code (small : Nat) {n : Nat} (low high : UInt8) (hlow : low.toNat = small)
    (hn : n < high.toNat - small) :
    (low ≤ (small + n).toUInt8 ∧ (small + n).toUInt8 < high) ∧
      (small + n).toUInt8.toNat = small + n := by
  have hhigh := high.toNat_lt
  have hval : (small + n).toUInt8.toNat = small + n := Wasm.toNat_toUInt8 (by omega)
  rw [UInt8.le_iff_toNat_le, UInt8.lt_iff_toNat_lt, hval]
  omega

/-- The codes of a map. -/
def IsMapCode (code : UInt8) : Prop :=
  (0x80 ≤ code ∧ code < 0x90) ∨ code = 0xDE ∨ code = 0xDF

theorem announces_writeMapLength {n : Nat} (hn : n < 0x100000000) :
    Announces readMapLength IsMapCode (writeMapLength n) n := by
  obtain ⟨hsmall, h⟩ | ⟨_, ⟨⟩, -⟩ | ⟨hsize, h⟩ | ⟨hsize, h⟩ :=
    writeLength_cases hn 0x80 16 none 0xDE 0xDF
  · obtain ⟨hcode, hval⟩ := small_code 0x80 0x80 0x90 rfl hsmall
    refine ⟨_, _, h, .inl hcode, ?_⟩
    unfold readMapLength
    rw [if_neg (by rintro hnil; simp [hnil] at hcode), if_pos hcode, hval, Nat.add_sub_cancel_left]
    exact .pure
  · exact ⟨_, _, h, .inr (.inl rfl), (reads_readWord hsize).map⟩
  · exact ⟨_, _, h, .inr (.inr rfl), (reads_readWord hsize).map⟩

theorem announces_writeArrayLength {n : Nat} (hn : n < 0x100000000) :
    Announces readArrayLength (· ≠ 0xC0) (writeArrayLength n) n := by
  obtain ⟨hsmall, h⟩ | ⟨_, ⟨⟩, -⟩ | ⟨hsize, h⟩ | ⟨hsize, h⟩ :=
    writeLength_cases hn 0x90 16 none 0xDC 0xDD
  · obtain ⟨hcode, hval⟩ := small_code 0x90 0x90 0xA0 rfl hsmall
    have hsome : (0x90 + n).toUInt8 ≠ 0xC0 := by
      rintro hnil
      simp [hnil] at hcode
    refine ⟨_, _, h, hsome, ?_⟩
    unfold readArrayLength
    rw [if_neg hsome, if_pos hcode, hval, Nat.add_sub_cancel_left]
    exact .pure
  · exact ⟨_, _, h, by decide, (reads_readWord hsize).map⟩
  · exact ⟨_, _, h, by decide, (reads_readWord hsize).map⟩

/-! ## Texts -/

theorem announces_writeText {n : Nat} (hn : n < 0x100000000) :
    Announces readBytesLength (· ≠ 0xC0) (writeLength 0xA0 32 (some 0xD9) 0xDA 0xDB n) n := by
  obtain ⟨hsmall, h⟩ | ⟨_, ⟨⟩, hsize, h⟩ | ⟨hsize, h⟩ | ⟨hsize, h⟩ :=
    writeLength_cases hn 0xA0 32 (some 0xD9) 0xDA 0xDB
  · obtain ⟨hcode, hval⟩ := small_code 0xA0 0xA0 0xC0 rfl hsmall
    have hsome : (0xA0 + n).toUInt8 ≠ 0xC0 := by
      rintro hnil
      simp [hnil] at hcode
    refine ⟨_, _, h, hsome, ?_⟩
    unfold readBytesLength
    rw [if_neg hsome, if_pos hcode, hval, Nat.add_sub_cancel_left]
    exact .pure
  · exact ⟨_, _, h, by decide, (reads_readWord hsize).map⟩
  · exact ⟨_, _, h, by decide, (reads_readWord hsize).map⟩
  · exact ⟨_, _, h, by decide, (reads_readWord hsize).map⟩

theorem announces_writeBytes {n : Nat} (hn : n < 0x100000000) :
    Announces readBytesLength (· ≠ 0xC0) (writeLength 0 0 (some 0xC4) 0xC5 0xC6 n) n := by
  obtain ⟨hsmall, -⟩ | ⟨_, ⟨⟩, hsize, h⟩ | ⟨hsize, h⟩ | ⟨hsize, h⟩ :=
    writeLength_cases hn 0 0 (some 0xC4) 0xC5 0xC6
  · exact absurd hsmall (Nat.not_lt_zero n)
  · exact ⟨_, _, h, by decide, (reads_readWord hsize).map⟩
  · exact ⟨_, _, h, by decide, (reads_readWord hsize).map⟩
  · exact ⟨_, _, h, by decide, (reads_readWord hsize).map⟩

/-- Bytes behind a header that announces how many they are. -/
theorem reads_readRaw {codes : UInt8 → Prop} {header content : List UInt8}
    (h : Announces readBytesLength codes header content.length) :
    Reads readRaw (header ++ content) content := by
  unfold readRaw
  rw [← bind_assoc]
  exact h.reads.bind (reads_readBytes content)

theorem reads_readText {t : Text} (ht : t.size < 0x100000000) : Reads readText (writeText t) t :=
  (reads_readRaw (announces_writeText ht)).bind_pure .pure

theorem reads_readRaw_writeBytes {content : List UInt8} (hcontent : content.length < 0x100000000) :
    Reads readRaw (writeBytes content) content := by
  unfold writeBytes
  split
  · rename_i hnil
    obtain rfl := List.isEmpty_iff.1 hnil
    exact reads_code .pure
  · exact reads_readRaw (announces_writeBytes hcontent)

/-! ## Moments -/

/-- A moment within the 64 bits of seconds, with less than a second of nanoseconds or a bit more. -/
structure InRange (t : Instant) : Prop where
  low : -0x8000000000000000 ≤ t.seconds
  high : t.seconds < 0x8000000000000000
  nanos : t.nanos < 0x40000000

theorem reads_shortMoment {seconds : Nat} (h : seconds < 256 ^ 4) :
    Reads readMoment (0xD6 :: 0xFF :: bigEndian 4 seconds) ⟨seconds, 0⟩ := by
  have hlength : Reads (readExtensionLength 0xD6) [] 4 := .pure
  refine reads_code ?_
  rw [if_neg (by decide)]
  refine hlength.bind (reads_code ?_)
  rw [if_neg (by decide), if_pos rfl]
  exact (reads_readWord h).bind_pure .pure

theorem reads_mediumMoment {seconds nanos : Nat} (hseconds : seconds < 0x400000000)
    (hnanos : nanos < 0x40000000) :
    Reads readMoment (0xD7 :: 0xFF :: bigEndian 8 (nanos * 0x400000000 + seconds))
      ⟨seconds, nanos⟩ := by
  have hlength : Reads (readExtensionLength 0xD7) [] 8 := .pure
  refine reads_code ?_
  rw [if_neg (by decide)]
  refine hlength.bind (reads_code ?_)
  rw [if_neg (by decide), if_neg (by decide), if_pos rfl]
  refine (reads_readWord (by omega)).bind_pure ?_
  rw [show (nanos * 0x400000000 + seconds) % 0x400000000 = seconds by omega,
    show (nanos * 0x400000000 + seconds) / 0x400000000 = nanos by omega]
  exact .pure

theorem reads_longMoment {seconds : Int} {nanos : Nat} (hlow : -0x8000000000000000 ≤ seconds)
    (hhigh : seconds < 0x8000000000000000) (hnanos : nanos < 0x40000000) :
    Reads readMoment (0xC7 :: 12 :: 0xFF ::
      (bigEndian 4 nanos ++ bigEndian 8 (Int64.ofInt seconds).toUInt64.toNat))
      ⟨seconds, nanos⟩ := by
  have hlength : Reads (readExtensionLength 0xC7) (bigEndian 1 12) 12 :=
    reads_readWord (by decide)
  refine reads_code ?_
  rw [if_neg (by decide)]
  refine hlength.bind (reads_code ?_)
  rw [if_neg (by decide), if_neg (by decide), if_neg (by decide), if_pos rfl]
  exact (reads_readWord (by omega)).bind ((reads_readSigned hlow hhigh).bind_pure .pure)

theorem reads_readMoment {t : Instant} (ht : InRange t) : Reads readMoment (writeMoment t) t := by
  obtain ⟨hlow, hhigh, hnanos⟩ := ht
  have hseconds := toNat_toUInt64_ofInt t.seconds
  unfold writeMoment
  generalize hn : (Int64.ofInt t.seconds).toUInt64.toNat = n at hseconds ⊢
  dsimp only
  split
  · obtain ⟨seconds, nanos⟩ := t
    obtain rfl : (n : Int) = seconds := by
      dsimp only at hseconds hlow hhigh
      omega
    split
    · rename_i hshort
      obtain ⟨rfl, hshort⟩ := hshort
      exact reads_shortMoment hshort
    · exact reads_mediumMoment ‹_› hnanos
  · subst hn
    exact reads_longMoment hlow hhigh hnanos

end WasmBackend.Storage.MessagePack
