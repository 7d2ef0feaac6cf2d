import WasmBackend.Proofs.Wasm.Reading

/-!
# Numbers in as few bytes as possible

The decoders here are those of LEB128 without a bound: they gather seven bits of every byte up to
the first one without its high bit, and a signed number is negative if the highest gathered bit is
set.  What `k + 1` bytes can say to them, and which numbers the encoders write in `k + 1` bytes, are
the same numbers, so no other bytes for a number are fewer.

The encoders are defined on numbers.  On machine words they are the usual loops, which shift a word
by seven bits and look at the sign of the group that was shifted out.
-/

namespace WasmBackend.Wasm

namespace Reader

/-! ## The decoders -/

/-- What was gathered from the bytes of a number. -/
structure Gathered where
  value : Nat
  /-- How many bits were gathered. -/
  bits : Nat
  /-- The byte that ended the number. -/
  last : UInt8

/-- The number if its highest bit is the sign. -/
def Gathered.signed (g : Gathered) : Int :=
  if g.last &&& 0x40 = 0 then g.value else g.value - 2 ^ g.bits

/-- Gathers bits from bytes up to the first one without its high bit, behind those gathered
before. -/
def groups : Nat → Nat → Reader Gathered
  | _, _, [] => none
  | value, shift, b :: rest =>
    let value := value ||| (b &&& 0x7F).toNat <<< shift
    if b &&& 0x80 = 0 then some (⟨value, shift + 7, b⟩, rest) else groups value (shift + 7) rest

/-- An unsigned number. -/
def uleb128 : Reader Nat :=
  Gathered.value <$> groups 0 0

/-- A signed number. -/
def sleb128 : Reader Int :=
  Gathered.signed <$> groups 0 0

theorem run_map_eq_some {α β : Type} {r : Reader α} {g : α → β} {input rest : List UInt8} {b : β}
    (h : (g <$> r).run input = some (b, rest)) : ∃ a, r.run input = some (a, rest) ∧ g a = b := by
  rw [StateT.run_map] at h
  obtain ⟨⟨a, left⟩, hrun, heq⟩ := Option.map_eq_some_iff.mp h
  obtain ⟨rfl, rfl⟩ := Prod.mk.inj heq
  exact ⟨a, hrun, rfl⟩

end Reader

/-- The reader takes exactly `bytes` for `a`, and no fewer bytes are ever read as `a`. -/
structure ShortestFor {α : Type} (r : Reader α) (bytes : List UInt8) (a : α) : Prop where
  reads : Reads r bytes a
  le_of_reads : ∀ input rest, r.run input = some (a, rest) →
    bytes.length + rest.length ≤ input.length

/-! ## Bits of a byte -/

section Bits

variable {b : UInt8}

theorem toNat_and_low (b : UInt8) : (b &&& 0x7F).toNat = b.toNat % 128 := by
  rw [UInt8.toNat_and]
  exact Nat.and_two_pow_sub_one_eq_mod b.toNat 7

/-- The two highest bits of every byte. -/
theorem high_bits : ∀ i : Fin 256, (i.val &&& 128 = 0 ↔ i.val < 128) ∧
    (i.val &&& 64 = 0 ↔ i.val % 128 < 64) ∧ (i.val < 128 → i.val ||| 128 = i.val + 128) := by
  decide +kernel

theorem and_high_eq_zero_iff : b &&& 0x80 = 0 ↔ b.toNat < 128 := by
  rw [← UInt8.toNat_inj, UInt8.toNat_and]
  exact (high_bits ⟨b.toNat, b.toNat_lt⟩).1

theorem and_sign_eq_zero_iff : b &&& 0x40 = 0 ↔ b.toNat % 128 < 64 := by
  rw [← UInt8.toNat_inj, UInt8.toNat_and]
  exact (high_bits ⟨b.toNat, b.toNat_lt⟩).2.1

theorem toNat_or_high (h : b.toNat < 128) : (b ||| 0x80).toNat = b.toNat + 128 := by
  rw [UInt8.toNat_or]
  exact (high_bits ⟨b.toNat, b.toNat_lt⟩).2.2 h

/-- Bits put behind those gathered before are added to them. -/
theorem or_shift {value shift : Nat} (hvalue : value < 2 ^ shift) (b : UInt8) :
    value ||| (b &&& 0x7F).toNat <<< shift = value + b.toNat % 128 * 2 ^ shift := by
  rw [toNat_and_low, Nat.or_comm, ← Nat.shiftLeft_add_eq_or_of_lt hvalue, Nat.shiftLeft_eq,
    Nat.add_comm]

end Bits

/-! ## What the decoders gather -/

section Groups

variable {value shift : Nat} {b : UInt8} {input rest : List UInt8}

theorem groups_last (hvalue : value < 2 ^ shift) (hb : b.toNat < 128) :
    Reader.groups value shift (b :: rest) =
      some (⟨value + b.toNat * 2 ^ shift, shift + 7, b⟩, rest) := by
  rw [Reader.groups, if_pos (by rwa [and_high_eq_zero_iff]), or_shift hvalue, Nat.mod_eq_of_lt hb]

theorem groups_more (hvalue : value < 2 ^ shift) (hb : 128 ≤ b.toNat) :
    Reader.groups value shift (b :: rest) =
      Reader.groups (value + (b.toNat - 128) * 2 ^ shift) (shift + 7) rest := by
  have hlow : b.toNat % 128 = b.toNat - 128 := by
    have := b.toNat_lt
    omega
  rw [Reader.groups, if_neg (by rw [and_high_eq_zero_iff]; omega), or_shift hvalue, hlow]

/-- There is room for seven more bits. -/
theorem add_lt_two_pow {low : Nat} (hvalue : value < 2 ^ shift) (hlow : low < 128) :
    value + low * 2 ^ shift < 2 ^ (shift + 7) := by
  calc value + low * 2 ^ shift
      < 2 ^ shift + low * 2 ^ shift := by omega
    _ = (low + 1) * 2 ^ shift := by ring
    _ ≤ 128 * 2 ^ shift := Nat.mul_le_mul_right _ hlow
    _ = 2 ^ (shift + 7) := by ring

theorem reads_groups_unsigned (n : Nat) (hvalue : value < 2 ^ shift) :
    ∃ last, Reads (Reader.groups value shift) (Leb128.unsigned n)
      ⟨value + n * 2 ^ shift, shift + 7 * (Leb128.unsigned n).length, last⟩ := by
  induction n using Leb128.unsigned.induct generalizing value shift with
  | case1 n hn =>
    refine ⟨n.toUInt8, fun rest ↦ ?_⟩
    have hbyte := toNat_toUInt8 (show n < 256 by omega)
    rw [Leb128.unsigned, if_pos hn]
    exact (groups_last hvalue (by omega)).trans (by rw [hbyte]; rfl)
  | case2 n hn ih =>
    have hbyte := toNat_toUInt8 (show n % 128 + 128 < 256 by omega)
    obtain ⟨last, hreads⟩ := ih (add_lt_two_pow hvalue (show n % 128 < 128 by omega))
    refine ⟨last, fun rest ↦ ?_⟩
    rw [Leb128.unsigned, if_neg hn]
    refine (groups_more hvalue (by omega)).trans ?_
    rw [hbyte, Nat.add_sub_cancel]
    refine (hreads rest).trans ?_
    have hvalues : value + n % 128 * 2 ^ shift + n / 128 * 2 ^ (shift + 7) =
        value + n * 2 ^ shift := by
      calc value + n % 128 * 2 ^ shift + n / 128 * 2 ^ (shift + 7)
          = value + (n % 128 + 128 * (n / 128)) * 2 ^ shift := by ring
        _ = value + n * 2 ^ shift := by rw [Nat.mod_add_div]
    rw [hvalues, List.length_cons, Nat.mul_succ, Nat.add_assoc, Nat.add_comm 7]

/-- The bits of a signed number; where the last byte says that it is negative, they are those of
the number that is larger by the power of two behind them. -/
theorem reads_groups_signed (n : Int) (hvalue : value < 2 ^ shift) :
    ∃ (gathered : Nat) (last : UInt8), Reads (Reader.groups value shift) (Leb128.signed n)
        ⟨value + gathered * 2 ^ shift, shift + 7 * (Leb128.signed n).length, last⟩ ∧
      (gathered : Int) = if last &&& 0x40 = 0 then n else n + 128 ^ (Leb128.signed n).length := by
  induction n using Leb128.signed.induct generalizing value shift with
  | case1 n hn =>
    have hbyte := toNat_toUInt8 (show (n % 128).toNat < 256 by omega)
    refine ⟨(n % 128).toNat, (n % 128).toNat.toUInt8, ?_, ?_⟩
    · intro rest
      rw [Leb128.signed, if_pos hn]
      exact (groups_last hvalue (by omega)).trans (by rw [hbyte]; rfl)
    · rw [Leb128.signed, if_pos hn]
      rw [signOnly_iff] at hn
      simp only [and_sign_eq_zero_iff, hbyte, List.length_singleton, pow_one]
      split <;> omega
  | case2 n hn ih =>
    have hbyte := toNat_toUInt8 (show (n % 128 + 128).toNat < 256 by omega)
    have hlow : (n % 128 + 128).toNat - 128 = (n % 128).toNat := by omega
    obtain ⟨high, last, hreads, hhigh⟩ :=
      ih (add_lt_two_pow hvalue (show (n % 128).toNat < 128 by omega))
    refine ⟨(n % 128).toNat + 128 * high, last, ?_, ?_⟩
    · intro rest
      rw [Leb128.signed, if_neg hn]
      refine (groups_more hvalue (by omega)).trans ?_
      rw [hbyte, hlow]
      refine (hreads rest).trans ?_
      have hvalues : value + (n % 128).toNat * 2 ^ shift + high * 2 ^ (shift + 7) =
          value + ((n % 128).toNat + 128 * high) * 2 ^ shift := by ring
      rw [hvalues, List.length_cons, Nat.mul_succ, Nat.add_assoc, Nat.add_comm 7]
    · rw [Leb128.signed, if_neg hn, List.length_cons, pow_succ]
      push_cast
      rw [hhigh]
      split <;> omega

/-- What can be gathered from `k + 1` bytes, and where the sign is read. -/
theorem exists_of_groups {g : Reader.Gathered} (hvalue : value < 2 ^ shift)
    (h : Reader.groups value shift input = some (g, rest)) :
    ∃ k high, input.length = rest.length + (k + 1) ∧ g.bits = shift + 7 * (k + 1) ∧
      g.value = value + high * 2 ^ shift ∧ high < 128 ^ (k + 1) ∧
      (g.last &&& 0x40 = 0 ↔ high < 64 * 128 ^ k) := by
  induction input generalizing value shift with
  | nil => simp [Reader.groups] at h
  | cons b input ih =>
    have hbyte := b.toNat_lt
    by_cases hb : b.toNat < 128
    · rw [groups_last hvalue hb] at h
      obtain ⟨rfl, rfl⟩ := Prod.mk.inj (Option.some.inj h)
      refine ⟨0, b.toNat, rfl, rfl, rfl, by simpa using hb, ?_⟩
      rw [and_sign_eq_zero_iff, Nat.mod_eq_of_lt hb]
      simp
    · rw [groups_more hvalue (by omega)] at h
      obtain ⟨k, high, hlength, hbits, hgathered, hhigh, hsign⟩ :=
        ih (add_lt_two_pow hvalue (by omega)) h
      refine ⟨k + 1, (b.toNat - 128) + 128 * high, ?_, by omega, ?_, ?_, ?_⟩
      · rw [List.length_cons, hlength]
        omega
      · rw [hgathered]
        ring
      · rw [pow_succ]
        omega
      · rw [hsign, pow_succ]
        omega

end Groups

/-! ## How many bytes there are -/

/-- The numbers written in `k + 1` bytes. -/
theorem length_unsigned_le_iff {k n : Nat} :
    (Leb128.unsigned n).length ≤ k + 1 ↔ n < 128 ^ (k + 1) := by
  induction k generalizing n with
  | zero =>
    rw [Leb128.unsigned]
    split
    case isTrue hn => simpa using hn
    case isFalse hn =>
      have hpos : (Leb128.unsigned (n / 128)).length ≠ 0 := by
        rw [Leb128.unsigned]
        split <;> simp
      rw [List.length_cons, pow_one]
      omega
  | succ k ih =>
    have hpow : 0 < 128 ^ (k + 1) := by positivity
    rw [Leb128.unsigned, pow_succ]
    split
    case isTrue hn =>
      rw [List.length_singleton]
      omega
    case isFalse hn =>
      rw [List.length_cons, Nat.add_le_add_iff_right, ih]
      omega

/-- The signed numbers written in `k + 1` bytes. -/
theorem length_signed_le_iff {k : Nat} {n : Int} :
    (Leb128.signed n).length ≤ k + 1 ↔ -(64 * 128 ^ k) ≤ n ∧ n < 64 * 128 ^ k := by
  induction k generalizing n with
  | zero =>
    rw [Leb128.signed]
    split
    case isTrue hn =>
      rw [signOnly_iff] at hn
      rw [List.length_singleton, pow_zero]
      omega
    case isFalse hn =>
      have hpos : (Leb128.signed (n / 128)).length ≠ 0 := by
        rw [Leb128.signed]
        split <;> simp
      rw [signOnly_iff] at hn
      rw [List.length_cons, pow_zero]
      omega
  | succ k ih =>
    have hpow : (0 : Int) < 128 ^ k := by positivity
    rw [Leb128.signed, pow_succ]
    split
    case isTrue hn =>
      rw [signOnly_iff] at hn
      rw [List.length_singleton]
      omega
    case isFalse hn =>
      rw [List.length_cons, Nat.add_le_add_iff_right, ih]
      omega

/-! ## The encoders are exact -/

/-- The numbers that `k + 1` bytes can say with their highest bit as the sign. -/
theorem signed_bounds {g : Reader.Gathered} {k : Nat} (hbits : g.bits = 7 * (k + 1))
    (hvalue : g.value < 128 ^ (k + 1)) (hsign : g.last &&& 0x40 = 0 ↔ g.value < 64 * 128 ^ k) :
    -(64 * 128 ^ k) ≤ g.signed ∧ g.signed < 64 * 128 ^ k := by
  rw [pow_succ] at hvalue
  have hpow : (2 : Int) ^ g.bits = 128 ^ k * 128 := by
    rw [hbits, pow_mul, pow_succ]
    norm_num
  unfold Reader.Gathered.signed
  rw [hpow]
  zify at hvalue
  split
  case isTrue hpositive =>
    have hlow := hsign.mp hpositive
    zify at hlow
    omega
  case isFalse hnegative =>
    have hhigh := mt hsign.mpr hnegative
    zify at hhigh
    omega

theorem shortestFor_unsigned (n : Nat) :
    ShortestFor Reader.uleb128 (Leb128.unsigned n) n where
  reads := by
    obtain ⟨last, hreads⟩ := reads_groups_unsigned n (show 0 < 2 ^ 0 by simp)
    have hvalue := hreads.map (g := Reader.Gathered.value)
    rwa [pow_zero, Nat.mul_one, Nat.zero_add] at hvalue
  le_of_reads := by
    intro input rest h
    obtain ⟨g, hgroups, rfl⟩ := Reader.run_map_eq_some h
    obtain ⟨k, high, hlength, -, hgathered, hhigh, -⟩ :=
      exists_of_groups (show 0 < 2 ^ 0 by simp) hgroups
    rw [pow_zero, Nat.mul_one, Nat.zero_add] at hgathered
    have hshort : (Leb128.unsigned g.value).length ≤ k + 1 := by
      rw [length_unsigned_le_iff, hgathered]
      exact hhigh
    omega

theorem shortestFor_signed (n : Int) : ShortestFor Reader.sleb128 (Leb128.signed n) n where
  reads := by
    obtain ⟨gathered, last, hreads, hgathered⟩ := reads_groups_signed n (show 0 < 2 ^ 0 by simp)
    have hvalue := hreads.map (g := Reader.Gathered.signed)
    have hn : Reader.Gathered.signed
        ⟨0 + gathered * 2 ^ 0, 0 + 7 * (Leb128.signed n).length, last⟩ = n := by
      have hpow : (2 : Int) ^ (7 * (Leb128.signed n).length) = 128 ^ (Leb128.signed n).length := by
        rw [pow_mul]
        norm_num
      simp only [Reader.Gathered.signed, pow_zero, Nat.mul_one, Nat.zero_add, hpow, hgathered]
      split <;> omega
    rwa [hn] at hvalue
  le_of_reads := by
    intro input rest h
    obtain ⟨g, hgroups, rfl⟩ := Reader.run_map_eq_some h
    obtain ⟨k, high, hlength, hbits, hgathered, hhigh, hsign⟩ :=
      exists_of_groups (show 0 < 2 ^ 0 by simp) hgroups
    rw [pow_zero, Nat.mul_one, Nat.zero_add] at hgathered
    rw [Nat.zero_add] at hbits
    rw [← hgathered] at hhigh hsign
    have hshort : (Leb128.signed g.signed).length ≤ k + 1 := by
      rw [length_signed_le_iff]
      exact signed_bounds hbits hhigh hsign
    omega

/-! ## Machine words -/

/-- On words, the encoder is the loop that shifts seven bits out until nothing is left. -/
theorem word_eq (v : UInt32) :
    Leb128.word v =
      if v >>> 7 = 0 then [(v &&& 0x7F).toUInt8]
      else ((v &&& 0x7F).toUInt8 ||| 0x80) :: Leb128.word (v >>> 7) := by
  have hlow : (v &&& 0x7F).toUInt8.toNat = v.toNat % 128 := by
    show (v.toNat &&& 2 ^ 7 - 1) % 2 ^ 8 = _
    rw [Nat.and_two_pow_sub_one_eq_mod]
    omega
  have hshift : (v >>> 7).toNat = v.toNat / 128 := by
    rw [UInt32.toNat_shiftRight]
    exact Nat.shiftRight_eq_div_pow _ _
  have hdone : v >>> 7 = 0 ↔ v.toNat < 128 := by
    rw [← UInt32.toNat_inj, hshift]
    show _ = 0 ↔ _
    omega
  unfold Leb128.word
  rw [Leb128.unsigned, hshift]
  simp only [hdone]
  split
  case isTrue hn =>
    congr 1
    rw [← UInt8.toNat_inj, hlow, toNat_toUInt8 (by omega)]
    omega
  case isFalse hn =>
    congr 1
    rw [← UInt8.toNat_inj, toNat_or_high (by omega), hlow, toNat_toUInt8 (by omega)]

theorem toInt_shiftRight_seven (w : Int64) : (w >>> 7).toInt = w.toInt / 128 := by
  have hbits : (w >>> 7).toBitVec = w.toBitVec.sshiftRight 7 := by
    rw [Int64.toBitVec_shiftRight]
    rfl
  rw [← Int64.toInt_toBitVec, hbits, BitVec.toInt_sshiftRight, Int.shiftRight_eq_div_pow,
    Int64.toInt_toBitVec]
  rfl

/-- The lowest seven bits of a word are those of its number. -/
theorem toNat_low (w : Int64) : ((w &&& 0x7F).toUInt64.toUInt8.toNat : Int) = w.toInt % 128 := by
  have hlow : (w &&& 0x7F).toUInt64.toUInt8.toNat = w.toBitVec.toNat % 128 := by
    show (w.toBitVec.toNat &&& 2 ^ 7 - 1) % 2 ^ 8 = _
    rw [Nat.and_two_pow_sub_one_eq_mod]
    omega
  have hint := BitVec.toInt_eq_toNat_cond w.toBitVec
  rw [Int64.toInt_toBitVec] at hint
  rw [hlow, hint]
  split <;> omega

/-- On words, the signed encoder is the loop that shifts seven bits out, with the sign, until only
copies of the sign of the last group are left. -/
theorem signed_toInt_eq (w : Int64) :
    Leb128.signed w.toInt =
      let low := (w &&& 0x7F).toUInt64.toUInt8
      if (w >>> 7 = 0 ∧ low &&& 0x40 = 0) ∨ (w >>> 7 = -1 ∧ low &&& 0x40 ≠ 0) then [low]
      else (low ||| 0x80) :: Leb128.signed (w >>> 7).toInt := by
  have hlow := toNat_low w
  have hzero : w >>> 7 = 0 ↔ w.toInt / 128 = 0 := by
    rw [← Int64.toInt_inj, toInt_shiftRight_seven]
    rfl
  have hminus : w >>> 7 = -1 ↔ w.toInt / 128 = -1 := by
    rw [← Int64.toInt_inj, toInt_shiftRight_seven]
    rfl
  generalize (w &&& 0x7F).toUInt64.toUInt8 = low at hlow
  have hstop : (w >>> 7 = 0 ∧ low &&& 0x40 = 0) ∨ (w >>> 7 = -1 ∧ low &&& 0x40 ≠ 0) ↔
      Leb128.signOnly (w.toInt % 128) (w.toInt / 128) = true := by
    rw [signOnly_iff, hzero, hminus, ne_eq, and_sign_eq_zero_iff]
    omega
  simp only [hstop, toInt_shiftRight_seven]
  rw [Leb128.signed]
  split
  case isTrue =>
    congr 1
    rw [← UInt8.toNat_inj, toNat_toUInt8 (by omega)]
    omega
  case isFalse =>
    congr 1
    rw [← UInt8.toNat_inj, toNat_or_high (by omega), toNat_toUInt8 (by omega)]
    omega

/-- Words are written in the fewest bytes from which they can be read, by the decoders without a
bound and by those of the format: in at most five bytes for 32 bits, in at most ten for 64 bits, and
in at most five for 64 bits that only extend the sign of 32. -/
theorem words_shortest (v : UInt32) (w : Int64) (x : Int32) :
    (ShortestFor Reader.uleb128 (Leb128.word v) v.toNat ∧
      Reads (Reader.unsigned 32) (Leb128.word v) v.toNat) ∧
    (ShortestFor Reader.sleb128 (Leb128.signed w.toInt) w.toInt ∧
      Reads (Reader.signed 64) (Leb128.signed w.toInt) w.toInt) ∧
    (Leb128.word v).length ≤ 5 ∧
    (Leb128.signed w.toInt).length ≤ 10 ∧
    (Leb128.signed x.toInt64.toInt).length ≤ 5 := by
  have hlow := w.le_toInt
  have hhigh := w.toInt_lt
  refine ⟨⟨shortestFor_unsigned _, reads_unsigned v.toNat_lt⟩,
    ⟨shortestFor_signed _, reads_signed hlow hhigh⟩, ?_, ?_, ?_⟩
  · apply length_unsigned_le_iff.mpr
    have := v.toNat_lt
    omega
  · apply length_signed_le_iff.mpr
    omega
  · rw [Int32.toInt_toInt64]
    have hlow := x.le_toInt
    have hhigh := x.toInt_lt
    apply length_signed_le_iff.mpr
    omega

end WasmBackend.Wasm
