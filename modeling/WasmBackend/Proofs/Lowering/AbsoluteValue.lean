import WasmBackend.Proofs.Lowering.Putting
import WasmBackend.Wasm.Selection

/-!
# The absolute value

An absolute value is taken without a branch: the sign of a register is spread over all of its bits,
and flipping by that and subtracting it negates the register where the sign is set.  What comes out
is the absolute value of the number that the register holds as a signed one.  Signed integers, and
those narrower than a register, are held as signed numbers; an unsigned integer as wide as its
register is not, and the values of its upper half come out negated.
-/

namespace WasmBackend

open Ir (Instr Machine Run State Var runInstrs)

/-! ## Registers -/

/-- The sign spread over the register. -/
theorem sshiftRight_pred {w : Nat} (x : BitVec w) :
    x.sshiftRight (w - 1) = if x.msb then BitVec.allOnes w else 0#w := by
  ext i hi
  have hbit : (x.sshiftRight (w - 1))[i] = x.msb := by
    rw [BitVec.getElem_sshiftRight]
    split
    · obtain rfl : i = 0 := by omega
      rw [BitVec.msb_eq_getLsbD_last, ← BitVec.getLsbD_eq_getElem]
      rfl
    · rfl
  rw [hbit]
  cases x.msb <;> simp

theorem flip_sub_sign {w : Nat} (x : BitVec w) :
    (x ^^^ x.sshiftRight (w - 1)) - x.sshiftRight (w - 1) = x.abs := by
  rw [sshiftRight_pred, BitVec.abs_eq]
  split
  · rw [BitVec.xor_allOnes, ← BitVec.neg_one_eq_allOnes, BitVec.sub_neg, ← BitVec.neg_eq_not_add]
  · rw [BitVec.xor_zero, BitVec.sub_zero]

theorem toNat_abs_eq_natAbs {w : Nat} (x : BitVec w) : x.abs.toNat = x.toInt.natAbs := by
  have hlt := x.isLt
  rw [BitVec.toNat_abs, BitVec.toInt_eq_msb_cond]
  split <;> omega

/-- A number that the register cannot hold as a signed one comes out negated. -/
theorem toNat_abs_ofInt {w : Nat} (hw : 0 < w) {z : Int} (hlow : -2 ^ (w - 1) ≤ z)
    (hhigh : z < 2 ^ w) :
    (BitVec.ofInt w z).abs.toNat = if z < 2 ^ (w - 1) then z.natAbs else (2 ^ w - z).toNat := by
  have hpow : (2 : Int) ^ w = 2 * 2 ^ (w - 1) := by
    rw [← pow_succ', Nat.sub_add_cancel hw]
  rw [toNat_abs_eq_natAbs]
  split
  · rw [BitVec.toInt_ofInt_eq_self hw hlow ‹_›]
  · have hint : (BitVec.ofInt w z).toInt = z - 2 ^ w := by
      rw [BitVec.toInt_ofInt, ← Int.sub_bmod_right, ← BitVec.toInt_ofInt, Nat.cast_pow,
        Nat.cast_ofNat, BitVec.toInt_ofInt_eq_self hw (by omega) (by omega)]
    rw [hint]
    omega

namespace Wasm

/-- Integer arithmetic on registers.  Division traps on zero and where the quotient does not fit;
shifts take the count modulo the width. -/
def IntBinary.eval {w : Nat} (x y : BitVec w) : IntBinary → Except Ir.Trap (BitVec w)
  | .add => .ok (x + y)
  | .sub => .ok (x - y)
  | .mul => .ok (x * y)
  | .divS =>
    if y = 0 then .error .divisionByZero
    else if x = BitVec.intMin w ∧ y = -1 then .error .integerOverflow
    else .ok (x.sdiv y)
  | .divU => if y = 0 then .error .divisionByZero else .ok (x / y)
  | .remS => if y = 0 then .error .divisionByZero else .ok (x.srem y)
  | .remU => if y = 0 then .error .divisionByZero else .ok (x % y)
  | .and => .ok (x &&& y)
  | .or => .ok (x ||| y)
  | .xor => .ok (x ^^^ y)
  | .shl => .ok (x <<< (y.toNat % w))
  | .shrS => .ok (x.sshiftRight (y.toNat % w))
  | .shrU => .ok (x >>> (y.toNat % w))

theorem intBinary?_of_select {here : Text} {op : Ir.Opcode} {p : Prim} {o : IntBinary}
    (h : selectBinary here op p = .ok (.intBinary (widthOf p.valType) o)) :
    intBinary? p.isSigned op = some o := by
  unfold selectBinary at h
  dsimp only at h
  split at h
  · split at h <;> cases h
  · split at h
    · cases h
      assumption
    · cases h
    · cases h

theorem select_of_intBinary? {op : Ir.Opcode} {p : Prim} {o : IntBinary} (here : Text)
    (hp : holdsFloat p.valType = false) (h : intBinary? p.isSigned op = some o) :
    selectBinary here op p = .ok (.intBinary (widthOf p.valType) o) := by
  simp [selectBinary, hp, h]

end Wasm

namespace Prim

/-- The integers. -/
def integers : List Prim :=
  [i8, u8, i16, u16, i32, u32, i64, u64]

/-- The bits of a value in memory. -/
def width (p : Prim) : Nat :=
  8 * p.size

/-- The values of an integer. -/
def Ranges (p : Prim) (z : Int) : Prop :=
  if p.isSigned then -2 ^ (p.width - 1) ≤ z ∧ z < 2 ^ (p.width - 1) else 0 ≤ z ∧ z < 2 ^ p.width

section

variable {p : Prim} {z : Int}

theorem Ranges.bounds (hp : p ∈ integers) (hz : p.Ranges z) :
    -2 ^ (p.valType.bits - 1) ≤ z ∧ z < 2 ^ p.valType.bits := by
  unfold Ranges at hz
  fin_cases hp <;> norm_num [isSigned, width, size, valType, ValType.bits] at hz ⊢ <;> omega

theorem isFloat_of_mem_integers (hp : p ∈ integers) : p.isFloat = false := by
  fin_cases hp <;> rfl

theorem holdsFloat_of_mem_integers (hp : p ∈ integers) : Wasm.holdsFloat p.valType = false := by
  fin_cases hp <;> rfl

theorem isSigned_asSigned (hp : p ∈ integers) : p.asSigned.isSigned = true := by
  fin_cases hp <;> rfl

@[simp]
theorem valType_asSigned (p : Prim) : p.asSigned.valType = p.valType := by
  cases p <;> rfl

theorem bits_pos (p : Prim) : 0 < p.valType.bits := by
  cases p.valType <;> decide

/-- **The absolute value of an integer**, as its register has it. -/
theorem Ranges.abs_eq (hp : p ∈ integers) (hz : p.Ranges z) :
    (BitVec.ofInt p.valType.bits z).abs.toNat
      = if z < 2 ^ (p.valType.bits - 1) then z.natAbs else (2 ^ p.valType.bits - z).toNat :=
  toNat_abs_ofInt p.bits_pos (hz.bounds hp).1 (hz.bounds hp).2

/-- It is that of the number, modulo the width, for all integers but those of the upper half of an
unsigned register. -/
theorem Ranges.abs_mod_iff (hp : p ∈ integers) (hz : p.Ranges z) :
    (BitVec.ofInt p.valType.bits z).abs.toNat % 2 ^ p.width = z.natAbs % 2 ^ p.width ↔
      z ≤ 2 ^ (p.valType.bits - 1) := by
  rw [hz.abs_eq hp]
  unfold Ranges at hz
  fin_cases hp <;> norm_num [isSigned, width, size, valType, ValType.bits] at hz ⊢ <;>
    split <;> omega

end

end Prim

/-! ## The code -/

namespace Ir

variable {V W : Type} {m : Machine V W} {p : Prim} {reg : V → BitVec p.valType.bits}

/-- On what registers of a primitive hold, the machine calculates as the selected instructions. -/
structure Machine.Calculates (m : Machine V W) (p : Prim) (reg : V → BitVec p.valType.bits) :
    Prop where
  const (imm : Int64) (w : W) : ∃ v,
    m.step { op := .const, storage := p, imm := imm } [] w = .done [v] w ∧
      reg v = BitVec.ofInt p.valType.bits imm.toInt
  binary {op : Opcode} {q : Prim} {o : Wasm.IntBinary} {here : Text} {x y : V}
    {z : BitVec p.valType.bits} (w : W) (hq : q.valType = p.valType)
    (hselect : Wasm.selectBinary here op q = .ok (.intBinary (Wasm.widthOf q.valType) o))
    (hz : o.eval (reg x) (reg y) = .ok z) : ∃ v,
      m.step { op := op, storage := q } [x, y] w = .done [v] w ∧ reg v = z

/-- A machine with registers of one width that calculates on integers only. -/
def calculator (w : Nat) : Machine (BitVec w) Unit where
  zero _ := 0
  test x := some (x != 0)
  step i args world :=
    if i.terminates then .trap .unreachable
    else
      match args with
      | [] => if i.op = .const then .done [BitVec.ofInt w i.imm.toInt] world else .trap .malformed
      | [x, y] =>
        match (Wasm.intBinary? i.storage.isSigned i.op).map (Wasm.IntBinary.eval x y) with
        | some (.ok z) => .done [z] world
        | some (.error reason) => .trap reason
        | none => .trap .malformed
      | _ => .trap .malformed
  world_of_pure := by
    intro i args world results world' _ h
    rfl
  returns_of_pure := by
    intro i args world _
    repeat' split
    all_goals simp
  trap_of_terminates := by
    intro i args world hterminates
    exact if_pos hterminates

theorem calculates_calculator (p : Prim) : (calculator p.valType.bits).Calculates p id where
  const imm _ := ⟨_, rfl, rfl⟩
  binary {op q o here x y z} w hq hselect hz := by
    have hop := Wasm.intBinary?_of_select hselect
    refine ⟨z, ?_, rfl⟩
    have hlive : Instr.terminates { op := op, storage := q } = false := by
      cases op <;> first | rfl | cases hop
    simp only [calculator, hlive, hop, Option.map_some, id] at hz ⊢
    rw [hz]
    rfl

/-- The code of the absolute value of `x`, with scratch variables from `t` on. -/
def absoluteCode (x t : Var) (p : Prim) (dst : List Var) : List Instr :=
  [{ op := .const, dst := [t], storage := p, imm := Int64.ofNat (p.valType.bits - 1) },
    { op := .shr, dst := [t + 1], args := [x, t], storage := p.asSigned },
    { op := .xor, dst := [t + 2], args := [x, t + 1], storage := p },
    { op := .sub, dst := dst, args := [t + 2, t + 1], storage := p }]

theorem Machine.Calculates.exists_run (hm : m.Calculates p reg) {op : Opcode} {q : Prim}
    {o : Wasm.IntBinary} {here : Text} {a b d : Var} {st : State V W} {z : BitVec p.valType.bits}
    (hq : q.valType = p.valType)
    (hselect : Wasm.selectBinary here op q = .ok (.intBinary (Wasm.widthOf q.valType) o))
    (hz : o.eval (reg (st.vars a)) (reg (st.vars b)) = .ok z) :
    ∃ v, reg v = z ∧ Instr.run m { op := op, dst := [d], args := [a, b], storage := q } st
      = (st.set d v, .fall) := by
  obtain ⟨v, hstep, hv⟩ := hm.binary st.world hq hselect hz
  have hop := Wasm.intBinary?_of_select hselect
  refine ⟨v, hv, Instr.run_of_done ?_ ?_ ?_ rfl hstep⟩
  · rintro rfl
    cases hop
  · cases op <;> first | rfl | cases hop
  · cases op <;> first | rfl | cases hop

/-- The code takes the absolute value, and changes no variable but the result and its own. -/
theorem exists_run_absoluteCode (hp : p ∈ Prim.integers) (hm : m.Calculates p reg) {x t : Var}
    (hx : x < t) (d : Var) (st : State V W) : ∃ (st' : State V W) (v : V),
      runInstrs m (absoluteCode x t p [d]) st = (st'.set d v, .fall) ∧
        reg v = (reg (st.vars x)).abs ∧ st'.Agrees (· < t) st := by
  have hfloat := Prim.holdsFloat_of_mem_integers hp
  obtain ⟨c, hconst, hc⟩ := hm.const (Int64.ofNat (p.valType.bits - 1)) st.world
  have hcount : (reg c).toNat % p.valType.bits = p.valType.bits - 1 := by
    rw [hc]
    clear * - hp
    fin_cases hp <;> decide
  have hrun₁ : Instr.run m
      { op := .const, dst := [t], storage := p, imm := Int64.ofNat (p.valType.bits - 1) } st
        = (st.set t c, .fall) := Instr.run_of_done nofun rfl rfl rfl hconst
  obtain ⟨sign, hsign, hrun₂⟩ : ∃ v, reg v = (reg (st.vars x)).sshiftRight (p.valType.bits - 1) ∧
      Instr.run m { op := .shr, dst := [t + 1], args := [x, t], storage := p.asSigned } (st.set t c)
        = ((st.set t c).set (t + 1) v, .fall) := by
    refine hm.exists_run p.valType_asSigned (Wasm.select_of_intBinary? "" (by simpa using hfloat)
      (by rw [Prim.isSigned_asSigned hp]; rfl)) ?_
    rw [show (st.set t c).vars x = st.vars x from if_neg (Nat.ne_of_lt hx),
      show (st.set t c).vars t = c from if_pos rfl, ← hcount]
    rfl
  set st₂ := (st.set t c).set (t + 1) sign with hst₂
  have hx₂ : st₂.vars x = st.vars x :=
    (if_neg (Nat.ne_of_lt (Nat.lt_succ_of_lt hx))).trans (if_neg (Nat.ne_of_lt hx))
  have hsign₂ : st₂.vars (t + 1) = sign := if_pos rfl
  obtain ⟨flipped, hflipped, hrun₃⟩ :
      ∃ v, reg v = reg (st.vars x) ^^^ (reg (st.vars x)).sshiftRight (p.valType.bits - 1) ∧
      Instr.run m { op := .xor, dst := [t + 2], args := [x, t + 1], storage := p } st₂
        = (st₂.set (t + 2) v, .fall) := by
    refine hm.exists_run rfl (Wasm.select_of_intBinary? "" hfloat rfl) ?_
    rw [hx₂, hsign₂, hsign]
    rfl
  set st₃ := st₂.set (t + 2) flipped with hst₃
  obtain ⟨v, hv, hrun₄⟩ : ∃ v, reg v = (reg (st.vars x)).abs ∧
      Instr.run m { op := .sub, dst := [d], args := [t + 2, t + 1], storage := p } st₃
        = (st₃.set d v, .fall) := by
    refine hm.exists_run rfl (Wasm.select_of_intBinary? "" hfloat rfl) ?_
    rw [show st₃.vars (t + 2) = flipped from if_pos rfl,
      show st₃.vars (t + 1) = sign from (if_neg (Nat.ne_of_lt (Nat.lt_succ_self _))).trans hsign₂,
      hflipped, hsign, ← flip_sub_sign]
    rfl
  refine ⟨st₃, v, ?_, hv, rfl, rfl, fun w hw ↦ ?_⟩
  · exact (Run.andThen_of_fall hrun₁).trans ((Run.andThen_of_fall hrun₂).trans
      ((Run.andThen_of_fall hrun₃).trans (Run.andThen_of_fall hrun₄)))
  · have hne (k : Nat) : w ≠ t + k := Nat.ne_of_lt (Nat.lt_add_right k hw)
    exact (if_neg (hne 2)).trans ((if_neg (hne 1)).trans (if_neg (hne 0)))

/-- The largest number of an unsigned register comes out as its negation. -/
example : (runInstrs (calculator 32) (absoluteCode 0 1 .u32 [4])
    ⟨fun _ ↦ BitVec.ofInt 32 0xFFFFFFFF, ⟨⟩, []⟩).1.vars 4 = 1 := by
  decide

end Ir

namespace Lowering

variable {V W : Type} {σ : Scope} {us : Ir.Forest} {frame : Frame} {s s' : Lowering} {p : Prim}

theorem Emits.vars_le {is : List Instr} (h : Emits s s' is) : s.vars.size ≤ s'.vars.size := by
  cases hsize : s.vars.size with
  | zero => exact Nat.zero_le _
  | succ k =>
    have hlt : k < s.vars.size := hsize ▸ Nat.lt_succ_self k
    exact (Array.getElem?_eq_some_iff.1 (h.vars k _ (Array.getElem?_eq_getElem hlt))).1

/-- A new variable for the result of an instruction. -/
theorem adds_result (p : Prim) (i : Var → Instr) :
    Adds frame s (do
      let v ← newVar p
      emit (i v)
      return v) fun v is s' ↦
        v = s.vars.size ∧ s'.vars.size = s.vars.size + 1 ∧ is = [i v] := by
  obtain ⟨_, hnew, rfl, -⟩ := Adds.of_eq (show Adds frame s _ _ from adds_newVar p) rfl
  obtain ⟨_, hemit, rfl⟩ := Adds.of_eq (show Adds frame _ _ _ from adds_emit (i s.vars.size)) rfl
  exact ⟨_, hnew.trans hemit, rfl, Array.size_push _, rfl⟩

theorem constant_eq (hp : p.isFloat = false) (n : Int64) : constant p n = (do
    let v ← newVar p
    emit { op := .const, dst := [v], storage := p, imm := n }
    return v) := by
  simp only [constant, constInto, hp]
  rfl

theorem adds_absolute (hp : p.isFloat = false) (x : Var) (dst : List Var) :
    Adds frame s (absolute x p dst) fun _ is _ ↦ is = Ir.absoluteCode x s.vars.size p dst := by
  unfold absolute
  rw [constant_eq hp]
  refine (adds_result p _).bind ?_
  rintro _ _ s₁ - ⟨rfl, hsize₁, rfl⟩
  refine Adds.bind (adds_result p fun v ↦
    { op := .shr, dst := [v], args := [x, s.vars.size], storage := p.asSigned }) ?_
  rintro _ _ s₂ - ⟨rfl, hsize₂, rfl⟩
  refine Adds.bind (adds_result p fun v ↦
    { op := .xor, dst := [v], args := [x, s₁.vars.size], storage := p }) ?_
  rintro _ _ s₃ - ⟨rfl, -, rfl⟩
  refine (adds_emit _).imp ?_
  rintro _ _ _ - rfl
  rw [hsize₂, hsize₁]
  rfl

theorem adds_nativeResult (result : Handle) :
    Adds frame s (nativeResult result) fun dst is s' ↦
      is = [] ∧ ∀ d ∈ dst, s.vars.size ≤ d ∧ d < s'.vars.size := by
  refine (adds_slotsOf result).bind ?_
  rintro slots _ s₁ hemits rfl
  cases slots with
  | nil => exact adds_pure ⟨rfl, by simp⟩
  | cons p rest =>
    obtain ⟨_, hnew, rfl, -⟩ := Adds.of_eq (show Adds frame s₁ _ _ from adds_newVar p) rfl
    refine ⟨_, hnew, rfl, fun d hd ↦ ?_⟩
    obtain rfl := List.mem_singleton.1 hd
    exact ⟨hemits.vars_le, by simp⟩

/-- An intrinsic for absolute values becomes their code. -/
theorem exists_absoluteCode {x : Var} {dst : List Var} {result : Handle} (hp : p.isFloat = false)
    (hx : s.vars[x]? = some p) (h : lowerNative "abs" [x] result frame s = (.ok dst, s')) :
    ∃ t, Emits s s' (Ir.absoluteCode x t p dst) ∧ s.vars.size ≤ t ∧
      ∀ d ∈ dst, s.vars.size ≤ d ∧ d < t := by
  obtain ⟨_, s₁, hresult, h⟩ := exists_of_bind h
  obtain ⟨_, hemits, rfl, hdst⟩ := (adds_nativeResult result).of_eq hresult
  obtain ⟨storage, _, hstorage, h⟩ := exists_of_bind h
  obtain ⟨rfl, hprim⟩ := eq_of_primOf hstorage
  obtain rfl := Option.some.inj ((hemits.vars x p hx).symm.trans hprim)
  dsimp only at h
  rw [if_pos ⟨rfl, by simp [hp]⟩] at h
  obtain ⟨_, _, hfirst, h⟩ := exists_of_bind h
  cases hfirst
  obtain ⟨_, _, habs, h⟩ := exists_of_bind h
  cases h
  obtain ⟨_, hemits', rfl⟩ := (adds_absolute hp x _).of_eq habs
  exact ⟨s₁.vars.size, hemits.trans hemits', hemits.vars_le, hdst⟩

/-- **Running an absolute value.**  The result gets the absolute value of what the register holds as
a signed number, and no variable from before changes. -/
theorem exists_run_lowerNative_abs {V W : Type} {m : Ir.Machine V W}
    {reg : V → BitVec p.valType.bits} {x d : Var} {result : Handle} (hw : Writing σ us s) (hp : p ∈ Prim.integers)
    (hx : s.vars[x]? = some p) (h : lowerNative "abs" [x] result frame s = (.ok [d], s'))
    (hm : m.Calculates p reg) (budget : Nat) (st : State V W) : ∃ st' : State V W,
      runAdded m budget s s' st = (st', .fall) ∧ reg (st'.vars d) = (reg (st.vars x)).abs ∧
        st'.Agrees (· < s.vars.size) st := by
  obtain ⟨t, hemits, ht, hd⟩ := exists_absoluteCode (Prim.isFloat_of_mem_integers hp) hx h
  have hlt : x < s.vars.size := (Array.getElem?_eq_some_iff.1 hx).1
  obtain ⟨us', hprogress, -⟩ := exists_progress hw (Nat.zero_le _) (Nat.zero_le _)
    (writes_lowerNative "abs" (varsBelow_singleton.2 hlt) result)
    (enlarges_lowerNative "abs" (fun _ _ ↦ Frame.sees_of_le (Nat.zero_le _)) result) h
  obtain ⟨st', v, hrun, hv, hagrees⟩ :=
    Ir.exists_run_absoluteCode hp hm (Nat.lt_of_lt_of_le hlt ht) d st
  refine ⟨st'.set d v, ?_, ?_, ?_⟩
  · rw [(hprogress.run_of_emits hemits).2, hrun]
  · rw [show (st'.set d v).vars d = v from if_pos rfl, hv]
  · refine (hagrees.mono fun w hw ↦ Nat.lt_of_lt_of_le hw ht).set_left ?_ v
    exact Nat.not_lt_of_le (hd d List.mem_cons_self).1

/-- **Of an integer in its register**, the result is the absolute value but for the upper half of an
unsigned integer as wide as the register. -/
theorem lowerNative_abs_value {V W : Type} {m : Ir.Machine V W} {reg : V → BitVec p.valType.bits}
    {x d : Var} {result : Handle} (hw : Writing σ us s) (hp : p ∈ Prim.integers)
    (hx : s.vars[x]? = some p) (h : lowerNative "abs" [x] result frame s = (.ok [d], s'))
    (hm : m.Calculates p reg) (budget : Nat) (st : State V W) {z : Int} (hz : p.Ranges z)
    (hreg : reg (st.vars x) = BitVec.ofInt p.valType.bits z) :
    (reg ((runAdded m budget s s' st).1.vars d)).toNat % 2 ^ p.width = z.natAbs % 2 ^ p.width ↔
      z ≤ 2 ^ (p.valType.bits - 1) := by
  obtain ⟨st', hrun, hd, -⟩ := exists_run_lowerNative_abs hw hp hx h hm budget st
  rw [hrun, hd, hreg]
  exact hz.abs_mod_iff hp

end Lowering

end WasmBackend
