import WasmBackend.Proofs.Wasm.Residence
import WasmBackend.Proofs.Wasm.TreeCode

/-!
# Generated code is valid

The validation rules of the machine, as a relation between the types on the operand stack before
and after an instruction, and the theorem that the code generated for a function obeys them when
the function itself is typed: every operand has the type its operation asks for, every local the
type of its variable, and a body ends with what the function promises.

The one thing the rules cannot be told by the generator alone is the type behind the number of an
indirect call, because types are numbered by their keys; so it is assumed that the keys of the types
that are called indirectly tell them from the other types of the module.
-/

namespace WasmBackend.Wasm

/-! ## The rules -/

/-- What the validation of code looks up. -/
structure TypeContext where
  /-- The types of the parameters and of the locals behind them. -/
  locals : List ValType
  /-- The types of the globals, with whether they can be set. -/
  globals : List (ValType × Bool)
  functions : List FuncType
  types : List FuncType
  /-- What the function promises. -/
  results : List ValType
  /-- The constructs around, none of which takes or leaves a value. -/
  labels : Nat := 0

/-- The context inside one more construct. -/
def TypeContext.inner (Γ : TypeContext) : TypeContext :=
  { Γ with labels := Γ.labels + 1 }

/-- The register a width of integers fills. -/
def Width.int : Width → ValType
  | .w32 => .i32
  | .w64 => .i64

/-- The register a width of floats fills. -/
def Width.float : Width → ValType
  | .w32 => .f32
  | .w64 => .f64

/-- The register a load fills. -/
def LoadKind.valType : LoadKind → ValType
  | .i32 | .byte _ | .half _ => .i32
  | .i64 => .i64
  | .f32 => .f32
  | .f64 => .f64

/-- The register a store empties. -/
def StoreKind.valType : StoreKind → ValType
  | .i32 | .byte | .half => .i32
  | .i64 => .i64
  | .f32 => .f32
  | .f64 => .f64

/-- The registers a conversion goes between. -/
def Conversion.valTypes : Conversion → ValType × ValType
  | .wrap => (.i64, .i32)
  | .extend _ => (.i32, .i64)
  | .truncate float int _ => (float.float, int.int)
  | .round int float _ => (int.int, float.float)
  | .demote => (.f64, .f32)
  | .promote => (.f32, .f64)

mutual

/-- The instruction may stand where the operand stack holds `σ`, top first, and leaves `τ`.  Behind
an instruction that control does not pass any stack is as good as another. -/
def Instruction.Typed (Γ : TypeContext) : Instruction → List ValType → List ValType → Prop
  | .unreachable, _, _ => True
  | .block body, σ, τ | .loop body, σ, τ => CodeTyped Γ.inner body [] [] ∧ σ = τ
  | .ifThen body, σ, τ => CodeTyped Γ.inner body [] [] ∧ σ = .i32 :: τ
  | .ifElse body other, σ, τ =>
    CodeTyped Γ.inner body [] [] ∧ CodeTyped Γ.inner other [] [] ∧ σ = .i32 :: τ
  | .br n, _, _ => n < Γ.labels
  | .brIf n, σ, τ => n < Γ.labels ∧ σ = .i32 :: τ
  | .ret, σ, _ => ∃ rest, σ = Γ.results.reverse ++ rest
  | .call n, σ, τ =>
    ∃ t rest, Γ.functions[n]? = some t ∧ σ = t.params.reverse ++ rest
      ∧ τ = t.results.reverse ++ rest
  | .callIndirect n, σ, τ =>
    ∃ t rest, Γ.types[n]? = some t ∧ σ = .i32 :: (t.params.reverse ++ rest)
      ∧ τ = t.results.reverse ++ rest
  | .drop, σ, τ => ∃ t, σ = t :: τ
  | .localGet n, σ, τ => ∃ t, Γ.locals[n]? = some t ∧ τ = t :: σ
  | .localSet n, σ, τ => ∃ t, Γ.locals[n]? = some t ∧ σ = t :: τ
  | .globalGet n, σ, τ => ∃ t mutable, Γ.globals[n]? = some (t, mutable) ∧ τ = t :: σ
  | .globalSet n, σ, τ => ∃ t, Γ.globals[n]? = some (t, true) ∧ σ = t :: τ
  | .load kind _, σ, τ => ∃ rest, σ = .i32 :: rest ∧ τ = kind.valType :: rest
  | .store kind _, σ, τ => σ = kind.valType :: .i32 :: τ
  | .memorySize, σ, τ => τ = .i32 :: σ
  | .memoryGrow, σ, τ => ∃ rest, σ = .i32 :: rest ∧ τ = .i32 :: rest
  | .i32Const _, σ, τ => τ = .i32 :: σ
  | .i64Const _, σ, τ => τ = .i64 :: σ
  | .f32Const _, σ, τ => τ = .f32 :: σ
  | .f64Const _, σ, τ => τ = .f64 :: σ
  | .intEqz w, σ, τ => ∃ rest, σ = w.int :: rest ∧ τ = .i32 :: rest
  | .intUnary w _, σ, τ => ∃ rest, σ = w.int :: rest ∧ τ = w.int :: rest
  | .intBinary w _, σ, τ => ∃ rest, σ = w.int :: w.int :: rest ∧ τ = w.int :: rest
  | .intCompare w _, σ, τ => ∃ rest, σ = w.int :: w.int :: rest ∧ τ = .i32 :: rest
  | .floatUnary w _, σ, τ => ∃ rest, σ = w.float :: rest ∧ τ = w.float :: rest
  | .floatBinary w _, σ, τ => ∃ rest, σ = w.float :: w.float :: rest ∧ τ = w.float :: rest
  | .floatCompare w _, σ, τ => ∃ rest, σ = w.float :: w.float :: rest ∧ τ = .i32 :: rest
  | .convert k, σ, τ => ∃ rest, σ = k.valTypes.1 :: rest ∧ τ = k.valTypes.2 :: rest

/-- The instructions may stand one behind the other. -/
def CodeTyped (Γ : TypeContext) : List Instruction → List ValType → List ValType → Prop
  | [], σ, τ => σ = τ
  | i :: rest, σ, τ => ∃ ρ, i.Typed Γ σ ρ ∧ CodeTyped Γ rest ρ τ

end

section

variable {Γ : TypeContext} {is js : List Instruction} {ρ σ τ : List ValType}

@[simp]
theorem codeTyped_nil : CodeTyped Γ [] σ τ ↔ σ = τ := by
  rw [CodeTyped]

theorem codeTyped_singleton {i : Instruction} : CodeTyped Γ [i] σ τ ↔ i.Typed Γ σ τ := by
  simp [CodeTyped]

theorem codeTyped_append :
    CodeTyped Γ (is ++ js) σ τ ↔ ∃ ρ, CodeTyped Γ is σ ρ ∧ CodeTyped Γ js ρ τ := by
  induction is generalizing σ with
  | nil => simp
  | cons i is ih =>
    simp only [List.cons_append, CodeTyped, ih]
    constructor
    · rintro ⟨ρ, hi, ρ', his, hjs⟩
      exact ⟨ρ', ⟨ρ, hi, his⟩, hjs⟩
    · rintro ⟨ρ', ⟨ρ, hi, his⟩, hjs⟩
      exact ⟨ρ, hi, ρ', his, hjs⟩

theorem CodeTyped.append (h : CodeTyped Γ is σ ρ) (h' : CodeTyped Γ js ρ τ) :
    CodeTyped Γ (is ++ js) σ τ :=
  codeTyped_append.2 ⟨ρ, h, h'⟩

end

end WasmBackend.Wasm

/-! ## Typed functions -/

namespace WasmBackend.Ir

open Wasm (FuncType)

/-- The register of a variable. -/
def Function.typeOf (f : Function) (v : Var) : ValType :=
  ((f.vars[v]?).getD .none).valType

/-- The operands and results of an instruction have these types. -/
def Function.Maps (f : Function) (i : Instr) (ins outs : List ValType) : Prop :=
  i.args.map f.typeOf = ins ∧ i.dst.map f.typeOf = outs

/-- The only result has the only type. -/
theorem Function.Maps.typeOf_eq {f : Function} {i : Instr} {ins : List ValType} {t : ValType}
    {v : Var} (h : f.Maps i ins [t]) (hv : v ∈ i.dst) : f.typeOf v = t := by
  obtain ⟨w, hw, htype⟩ := List.map_eq_singleton_iff.1 h.2
  rw [hw, List.mem_singleton] at hv
  rw [hv, htype]

/-- Operands and results have the types that the opcode and the primitives of the instruction ask
for; `callee` gives the signatures of named functions. -/
def Function.TypesInstr (f : Function) (callee : Text → Option Signature) (i : Instr) : Prop :=
  let t := i.storage.valType
  match i.op with
  | .const => f.Maps i [] [t]
  | .addr | .funcRef | .heapBase | .globalGet => f.Maps i [] [.i32]
  | .copy => ∃ u, f.Maps i [u] [u]
  | .add | .sub | .mul | .div | .rem | .and | .or | .xor | .shl | .shr => f.Maps i [t, t] [t]
  | .eq | .ne | .lt | .le | .gt | .ge => f.Maps i [t, t] [.i32]
  | .neg => f.Maps i [t] [t]
  | .eqz => f.Maps i [t] [.i32]
  | .convert => f.Maps i [i.source.valType] [t]
  | .load => f.Maps i [.i32] [t]
  | .store => f.Maps i [.i32, t] []
  | .call =>
    ∃ sig, callee i.callee = some sig
      ∧ f.Maps i (FuncType.ofSignature sig).params (FuncType.ofSignature sig).results
  | .callIndirect =>
    ∃ sig, i.sig = some sig
      ∧ f.Maps i ((FuncType.ofSignature sig).params ++ [.i32]) (FuncType.ofSignature sig).results
  | .globalSet => i.callee ≠ heapBaseGlobal ∧ f.Maps i [.i32] []
  | .ret => f.Maps i (FuncType.ofSignature f.signature).results []
  | .exit | .next | .unreachable => f.Maps i [] []
  | .exitIf => f.Maps i [.i32] []
  | .native =>
    if i.callee = "memory_size" then f.Maps i [] [.i32]
    else if i.callee = "memory_grow" then f.Maps i [.i32] [.i32]
    -- control does not come back from this intrinsic, so nothing is left whatever it promises
    else if i.callee = "unreachable" then True
    else f.Maps i [t] [t]
  | .phi | .unknown _ _ => True

/-- The instructions of a block are typed, assignments stay in one type, and a condition is a
word. -/
structure Function.TypesBlock (f : Function) (callee : Text → Option Signature) (b : Block) :
    Prop where
  instrs : ∀ i ∈ b.instrs, f.TypesInstr callee i
  copies : ∀ cs ∈ b.copyGroups, ∀ c ∈ cs, f.typeOf c.dst = f.typeOf c.src
  cond : b.kind = .cond ∨ b.kind = .branch → f.typeOf b.cond = .i32

/-- The first variables are the parameters, and the blocks of the function are typed. -/
structure Function.RegisterTyped (f : Function) (callee : Text → Option Signature) : Prop where
  params : ∀ v < f.params.length, f.vars[v]? = f.params[v]?
  blocks : ∀ ts, f.trees? = some ts → ∀ id ∈ Forest.ids ts, f.TypesBlock callee (f.blockAt id)

end WasmBackend.Ir

namespace WasmBackend.Wasm.Codegen

open Ir (Block BlockId Copy Forest Function Instr Signature Tree Var)

/-! ## Selected instructions -/

section

variable {Γ : TypeContext} {p : Prim} {σ : List ValType}

attribute [local simp] Instruction.Typed CodeTyped

theorem selectConst_typed (p : Prim) (imm : Int64) (float : Double) :
    (selectConst p imm float).Typed Γ σ (p.valType :: σ) := by
  unfold selectConst
  split <;> rename_i h <;> simp [h]

theorem width_int_of_not_holdsFloat {t : ValType} (h : ¬holdsFloat t) : (widthOf t).int = t := by
  cases t <;> simp_all [holdsFloat, widthOf, Width.int]

theorem width_float_of_holdsFloat {t : ValType} (h : holdsFloat t) : (widthOf t).float = t := by
  cases t <;> simp_all [holdsFloat, widthOf, Width.float]

/-- Whether an opcode compares. -/
def isComparison : Ir.Opcode → Bool
  | .eq | .ne | .lt | .le | .gt | .ge => true
  | _ => false

theorem selectBinary_typed {here : Text} {op : Ir.Opcode} {x : Instruction}
    (h : selectBinary here op p = .ok x) :
    x.Typed Γ (p.valType :: p.valType :: σ)
      ((if isComparison op then .i32 else p.valType) :: σ) := by
  unfold selectBinary at h
  dsimp only at h
  split at h
  · rename_i hfloat
    have hwidth := width_float_of_holdsFloat hfloat
    cases op <;> simp only [floatBinary?, floatCompare?] at h <;> cases h <;>
      simp [hwidth, isComparison]
  · rename_i hint
    have hwidth := width_int_of_not_holdsFloat hint
    cases op <;> simp only [intBinary?, intCompare?] at h <;> cases h <;>
      simp [hwidth, isComparison]

theorem selectEqz_typed (p : Prim) :
    CodeTyped Γ (selectEqz p) (p.valType :: σ) (.i32 :: σ) := by
  unfold selectEqz
  split <;> rename_i h <;> simp [Width.int, Width.float, h]

theorem selectLoad_typed {k : LoadKind} {offset : UInt32} (h : selectLoad p = .ok k) :
    (Instruction.load k offset).Typed Γ (.i32 :: σ) (p.valType :: σ) := by
  unfold selectLoad at h
  split at h <;> cases h <;> simp [LoadKind.valType, Prim.valType]

theorem selectStore_typed {k : StoreKind} {offset : UInt32} (h : selectStore p = .ok k) :
    (Instruction.store k offset).Typed Γ (p.valType :: .i32 :: σ) σ := by
  unfold selectStore at h
  split at h <;> cases h <;> simp [StoreKind.valType, Prim.valType]

theorem selectConversion_typed {source target : Prim} {k : Conversion}
    (h : selectConversion source target = .ok k) :
    (Instruction.convert k).Typed Γ (source.valType :: σ) (target.valType :: σ) := by
  unfold selectConversion at h
  split at h <;> cases h <;> simp_all [Conversion.valTypes, Width.int, Width.float]

end

/-! ## The parts of the code -/

/-- What the types of the code of a function rely on: the function is prepared and typed, and the
rules look up what the generator refers to.  `e` is the state in which the body is complete. -/
structure Typing (c : CodeContext) (e : CodeState) (callee : Text → Option Signature) (ts : Forest)
    (Γ : TypeContext) : Prop where
  prepared : Prepared c ts
  typed : c.function.RegisterTyped callee
  locals_eq : Γ.locals = c.function.params.map Prim.valType ++ e.locals.map Prod.snd
  locals_typed : ∀ l ∈ e.locals, ∃ p, c.function.vars[l.1]? = some p ∧ p.valType = l.2
  globals_eq : Γ.globals = [(.i32, false), (.i32, true)]
  functions : ∀ name sig n, callee name = some sig → functionIndex c.functions name = .ok n →
    Γ.functions[n]? = some (.ofSignature sig)
  types_prefix : e.types <+: Γ.types
  /-- Under the key of a type that is called indirectly stands that type. -/
  called : ∀ τ n, CallsType c.function τ → HasType Γ.types n τ → Γ.types[n]? = some τ
  results_eq : Γ.results = (FuncType.ofSignature c.function.signature).results

/-- The first global is the start of the heap, the second one how far it is used. -/
theorem globalNumber?_cases {name : Text} {n : Nat} (h : globalNumber? name = some n) :
    name = Ir.heapBaseGlobal ∧ n = 0 ∨ name ≠ Ir.heapBaseGlobal ∧ n = 1 := by
  unfold globalNumber? at h
  split at h
  · cases h
    exact .inl ⟨‹_›, rfl⟩
  · split at h <;> cases h
    exact .inr ⟨‹_›, rfl⟩

/-- The types of the values on the simulated stack. -/
def Placement.types (p : Placement) (f : Function) : List ValType :=
  p.stack.map f.typeOf

section

variable {c : CodeContext} {e : CodeState} {callee : Text → Option Signature} {ts : Forest}
  {Γ : TypeContext} {v : Var} {x : Instruction} {spilled vs : List Var} {code : List Instruction}
  {σ τ : List ValType} {p q : Placement} {id : BlockId} {i : Instr}

namespace Typing

theorem block (h : Typing c e callee ts Γ) (hid : id ∈ Forest.ids ts) :
    c.function.TypesBlock callee (c.function.blockAt id) :=
  h.typed.blocks ts h.prepared.laidOut.trees_eq id hid

/-- The constructs around have no part in this. -/
theorem inner (h : Typing c e callee ts Γ) : Typing c e callee ts Γ.inner :=
  { h with }

/-- A local has the type of its variable. -/
theorem getElem?_locals (h : Typing c e callee ts Γ) {n : Nat} (hn : localNumber? c e v = some n) :
    Γ.locals[n]? = some (c.function.typeOf v) := by
  rw [h.locals_eq]
  unfold localNumber? at hn
  split at hn
  · rename_i hv
    cases hn
    rw [List.getElem?_append_left (by simpa using hv), List.getElem?_map, Function.typeOf,
      h.typed.params v hv, List.getElem?_eq_getElem hv]
    rfl
  · obtain ⟨k, hk, rfl⟩ := Option.map_eq_some_iff.1 hn
    obtain ⟨hlt, hvar, -⟩ := List.findIdx?_eq_some_iff_getElem.1 hk
    obtain ⟨t, ht, htype⟩ := h.locals_typed _ (List.getElem_mem hlt)
    rw [List.getElem?_append_right (by simp), List.length_map, Nat.add_sub_cancel_left,
      List.getElem?_map, List.getElem?_eq_getElem hlt, Option.map_some, ← htype]
    rw [of_decide_eq_true hvar] at ht
    rw [Function.typeOf, ht, Option.getD_some]

theorem set (h : Typing c e callee ts Γ) (hx : Sets c e v x) :
    x.Typed Γ (c.function.typeOf v :: σ) σ := by
  obtain ⟨n, hn, rfl⟩ := hx
  rw [Instruction.Typed]
  exact ⟨_, h.getElem?_locals hn, rfl⟩

theorem sets (h : Typing c e callee ts Γ) (hsets : List.Forall₂ (Sets c e) vs code) :
    CodeTyped Γ code (vs.map c.function.typeOf ++ σ) σ := by
  induction hsets with
  | nil => simp
  | cons hx _ ih =>
    rw [List.map_cons, List.cons_append, CodeTyped]
    exact ⟨_, h.set hx, ih⟩

/-- What is computed again has the type of its variable. -/
theorem replay (h : Typing c e callee ts Γ) (hid : id ∈ Forest.ids ts)
    (hi : i ∈ (c.function.blockAt id).instrs) (hv : v ∈ i.dst) (hx : Replays c i x) :
    x.Typed Γ σ (c.function.typeOf v :: σ) := by
  have htyped := (h.block hid).instrs i hi
  unfold Function.TypesInstr at htyped
  unfold Replays at hx
  split at hx <;> rename_i hop <;> simp only [hop] at htyped
  · rw [hx, htyped.typeOf_eq hv]
    exact selectConst_typed ..
  · obtain ⟨a, -, rfl⟩ := hx
    rw [htyped.typeOf_eq hv, Instruction.Typed]
  · obtain ⟨slot, -, rfl⟩ := hx
    rw [htyped.typeOf_eq hv, Instruction.Typed]
  · rw [hx, htyped.typeOf_eq hv, Instruction.Typed, h.globals_eq]
    exact ⟨_, _, rfl, rfl⟩
  · exact hx.elim

theorem load (h : Typing c e callee ts Γ) (hx : Loads c e spilled v x) :
    x.Typed Γ σ (c.function.typeOf v :: σ) := by
  unfold Loads at hx
  split at hx
  · rename_i i hi
    obtain ⟨-, hv, id, hid, hmem⟩ := h.prepared.define_of_replay? hi
    exact h.replay hid hmem hv hx
  · obtain ⟨-, n, hn, rfl⟩ := hx
    rw [Instruction.Typed]
    exact ⟨_, h.getElem?_locals hn, rfl⟩

theorem loads (h : Typing c e callee ts Γ) (hloads : List.Forall₂ (Loads c e spilled) vs code) :
    CodeTyped Γ code σ ((vs.map c.function.typeOf).reverse ++ σ) := by
  induction hloads generalizing σ with
  | nil => simp
  | cons hx _ ih =>
    rw [List.map_cons, List.reverse_cons, List.append_assoc, CodeTyped]
    exact ⟨_, h.load hx, ih⟩

/-- Operands end up on top of the stack. -/
theorem schedule (h : Typing c e callee ts Γ) {args : List Var}
    (hs : Schedules c e args p code q) :
    CodeTyped Γ code (p.types c.function)
      ((args.map c.function.typeOf).reverse ++ q.types c.function) := by
  cases hs with
  | intro high used loaded rest spilled sets loads hlowest hsets hloads =>
    simp only [Placement.types, List.map_append, List.reverse_append, List.map_reverse,
      List.append_assoc]
    exact (h.sets hsets).append (h.loads hloads)

theorem define (h : Typing c e callee ts Γ) (hd : Defines c e vs p code q) :
    CodeTyped Γ code ((vs.map c.function.typeOf).reverse ++ p.types c.function)
      (q.types c.function) := by
  cases hd with
  | nothing => simp
  | unused v => simp [CodeTyped, Instruction.Typed]
  | kept v x _ _ _ hset => exact codeTyped_singleton.2 (h.set hset)
  | pushed v stack => simp [Placement.types]

theorem copies (h : Typing c e callee ts Γ) {cs : List Copy} (hid : id ∈ Forest.ids ts)
    (hcs : cs ∈ (c.function.blockAt id).copyGroups) (hcopies : Copies c e cs p code q) :
    CodeTyped Γ code (p.types c.function) (q.types c.function) := by
  cases hcopies with
  | intro sets hsources hsets =>
    have hsame : (cs.map Copy.src).map c.function.typeOf =
        (cs.map Copy.dst).map c.function.typeOf := by
      simp only [List.map_map, List.map_inj_left, Function.comp_apply]
      exact fun copy hcopy ↦ ((h.block hid).copies cs hcs copy hcopy).symm
    have hscheduled := h.schedule hsources
    rw [hsame] at hscheduled
    refine hscheduled.append ?_
    have := h.sets (σ := q.types c.function) hsets
    rwa [List.map_reverse, List.map_reverse] at this

/-- An intrinsic computes what its name says. -/
theorem native (h : Typing c e callee ts Γ) (hid : id ∈ Forest.ids ts)
    (hi : i ∈ (c.function.blockAt id).instrs) (hop : i.op = .native)
    (hcode : NativeComputes i code) :
    CodeTyped Γ code (((operands i).map c.function.typeOf).reverse ++ σ)
      (((results i).map c.function.typeOf).reverse ++ σ) := by
  have htyped := (h.block hid).instrs i hi
  unfold NativeComputes at hcode
  simp only [Function.TypesInstr, hop] at htyped
  simp only [operands, results, hop]
  -- only the intrinsics that compute have a name among those of the machine
  have hother (hsome : ¬(floatIntrinsic? i.callee = none ∧ intIntrinsic? i.callee = none)) :
      i.callee ≠ "memory_size" ∧ i.callee ≠ "memory_grow" ∧ i.callee ≠ "unreachable" := by
    refine ⟨?_, ?_, ?_⟩ <;> intro hname <;> rw [hname] at hsome <;> revert hsome <;> decide
  split at hcode
  · rename_i op hname
    obtain ⟨hfloat, rfl⟩ := hcode
    obtain ⟨hsize, hgrow, hunreachable⟩ := hother (by simp [hname])
    simp only [hsize, hgrow, hunreachable, if_false, or_false] at htyped ⊢
    rw [htyped.1, htyped.2, codeTyped_singleton, Instruction.Typed,
      width_float_of_holdsFloat hfloat]
    exact ⟨_, rfl, rfl⟩
  · rename_i op _ hname
    obtain ⟨hint, rfl⟩ := hcode
    obtain ⟨hsize, hgrow, hunreachable⟩ := hother (by simp [hname])
    simp only [hsize, hgrow, hunreachable, if_false, or_false] at htyped ⊢
    rw [htyped.1, htyped.2, codeTyped_singleton, Instruction.Typed,
      width_int_of_not_holdsFloat hint]
    exact ⟨_, rfl, rfl⟩
  · have hgrow : ¬("memory_grow" : Text) = "memory_size" := by decide
    have hsize : ¬("memory_size" : Text) = "unreachable" := by decide
    have hgrow' : ¬("memory_grow" : Text) = "unreachable" := by decide
    rcases hcode with ⟨hname, rfl⟩ | ⟨hname, rfl⟩ | ⟨hname, rfl⟩
    · simp only [hname, hsize, if_true, if_false, true_or] at htyped ⊢
      rw [htyped.2, codeTyped_singleton, Instruction.Typed]
      rfl
    · simp only [hname, hgrow, hgrow', if_true, if_false, or_false] at htyped ⊢
      rw [htyped.1, htyped.2, codeTyped_singleton, Instruction.Typed]
      exact ⟨σ, rfl, rfl⟩
    · rw [codeTyped_singleton, Instruction.Typed]
      trivial

/-- An operation takes its operands and leaves its results. -/
theorem compute (h : Typing c e callee ts Γ) (hid : id ∈ Forest.ids ts)
    (hi : i ∈ (c.function.blockAt id).instrs) (hcode : Computes c e i code) :
    CodeTyped Γ code (((operands i).map c.function.typeOf).reverse ++ σ)
      (((results i).map c.function.typeOf).reverse ++ σ) := by
  have htyped := (h.block hid).instrs i hi
  unfold Computes at hcode
  unfold Function.TypesInstr Function.Maps at htyped
  cases hop : i.op <;> simp only [hop] at hcode htyped <;> simp only [operands, results, hop]
  case copy =>
    obtain ⟨u, hargs, hdst⟩ := htyped
    simp [hcode, hargs, hdst]
  case add | sub | mul | div | rem | and | or | xor | shl | shr | eq | ne | lt | le | gt | ge =>
    obtain ⟨x, hx, rfl⟩ := hcode
    rw [htyped.1, htyped.2, codeTyped_singleton]
    exact selectBinary_typed hx
  case neg =>
    obtain ⟨hfloat, rfl⟩ := hcode
    rw [htyped.1, htyped.2, codeTyped_singleton, Instruction.Typed,
      width_float_of_holdsFloat hfloat]
    exact ⟨_, rfl, rfl⟩
  case eqz =>
    rw [htyped.1, htyped.2, hcode]
    exact selectEqz_typed _
  case convert =>
    obtain ⟨k, hk, rfl⟩ := hcode
    rw [htyped.1, htyped.2, codeTyped_singleton]
    exact selectConversion_typed hk
  case load =>
    obtain ⟨k, hk, rfl⟩ := hcode
    rw [htyped.1, htyped.2, codeTyped_singleton]
    exact selectLoad_typed hk
  case store =>
    obtain ⟨k, hk, rfl⟩ := hcode
    rw [htyped.1, codeTyped_singleton]
    exact selectStore_typed hk
  case call =>
    obtain ⟨n, hn, rfl⟩ := hcode
    obtain ⟨sig, hsig, hargs, hdst⟩ := htyped
    rw [hargs, hdst, codeTyped_singleton, Instruction.Typed]
    exact ⟨_, σ, h.functions _ sig n hsig hn, rfl, rfl⟩
  case callIndirect =>
    obtain ⟨sig, n, hsig, htype, rfl⟩ := hcode
    obtain ⟨sig', hsig', hargs, hdst⟩ := htyped
    obtain rfl : sig = sig' := by simpa [hsig] using hsig'
    rw [hargs, hdst, codeTyped_singleton, Instruction.Typed, List.reverse_append]
    have hcalls : CallsType c.function (.ofSignature sig) :=
      ⟨ts, h.prepared.laidOut.trees_eq, id, hid, i, hi, sig, hsig, rfl⟩
    exact ⟨_, σ, h.called _ n hcalls (htype.extend h.types_prefix), rfl, rfl⟩
  case globalGet =>
    obtain ⟨n, hn, rfl⟩ := hcode
    rw [htyped.2, codeTyped_singleton, Instruction.Typed, h.globals_eq]
    rcases globalNumber?_cases hn with ⟨-, rfl⟩ | ⟨-, rfl⟩ <;> exact ⟨_, _, rfl, rfl⟩
  case globalSet =>
    obtain ⟨n, hn, rfl⟩ := hcode
    obtain ⟨hname, hargs, -⟩ := htyped
    rw [hargs, codeTyped_singleton, Instruction.Typed, h.globals_eq]
    obtain ⟨hbase, -⟩ | ⟨-, rfl⟩ := globalNumber?_cases hn
    · exact absurd hbase hname
    · exact ⟨_, rfl, rfl⟩
  case native => simpa only [operands, results, hop] using h.native hid hi hop hcode
  case ret =>
    rw [hcode, htyped.1, codeTyped_singleton, Instruction.Typed, h.results_eq]
    exact ⟨σ, rfl⟩
  case unreachable =>
    rw [hcode, codeTyped_singleton, Instruction.Typed]
    trivial

/-- Control does not get behind the last instruction of what never falls through. -/
theorem compute_terminates (h : Typing c e callee ts Γ) (hid : id ∈ Forest.ids ts)
    (hi : i ∈ (c.function.blockAt id).instrs) (hterminates : i.terminates)
    (hcode : Computes c e i code) :
    CodeTyped Γ code (((operands i).map c.function.typeOf).reverse ++ σ) τ := by
  have htyped := (h.block hid).instrs i hi
  unfold Computes at hcode
  unfold Function.TypesInstr Function.Maps at htyped
  cases hop : i.op <;> simp only [Instr.terminates, hop, Bool.false_eq_true] at hterminates <;>
    simp only [hop] at hcode htyped <;> simp only [operands, hop]
  case ret =>
    rw [hcode, htyped.1, codeTyped_singleton, Instruction.Typed, h.results_eq]
    exact ⟨σ, rfl⟩
  case unreachable =>
    rw [hcode, codeTyped_singleton, Instruction.Typed]
    trivial
  case native =>
    have hname : i.callee = "unreachable" := by simpa using hterminates
    have hnone := intrinsics_eq_none (.inr hname)
    rw [NativeComputes, hnone.1, hnone.2, hname] at hcode
    obtain ⟨hsize, -⟩ | ⟨hgrow, -⟩ | ⟨-, rfl⟩ := hcode
    · exact absurd hsize (by decide)
    · exact absurd hgrow (by decide)
    · rw [codeTyped_singleton, Instruction.Typed]
      trivial

end Typing

/-! ## Blocks -/

/-- The code finds nothing on the stack and leaves nothing there; where control does not get behind
it, anything may stand there. -/
structure Closed (Γ : TypeContext) (code : List Instruction) (isTerminated : Bool) : Prop where
  typed : CodeTyped Γ code [] []
  ended : isTerminated = true → ∀ τ, CodeTyped Γ code [] τ

namespace Typing

/-- Copies of settled values do without the stack, so they may stand in a body of their own. -/
theorem copies_nil (h : Typing c e callee ts Γ) {cs : List Copy} (hid : id ∈ Forest.ids ts)
    (hcs : cs ∈ (c.function.blockAt id).copyGroups) (hcopies : Copies c e cs p code q)
    (hp : p.Unsettled c) : q = p ∧ CodeTyped Γ code [] [] := by
  cases hcopies with
  | intro sets hsources hsets =>
    obtain ⟨rfl, hloads⟩ := hsources.of_settled (fun v hv ↦ by
      obtain ⟨copy, hcopy, rfl⟩ := List.mem_map.1 hv
      exact (h.prepared.source hid hcs hcopy).1) hp
    refine ⟨rfl, h.copies (p := ⟨[], q.spilled⟩) (q := ⟨[], q.spilled⟩) hid hcs ?_⟩
    have := Schedules.intro (c := c) (e := e) [] [] (cs.map Copy.src) [] q.spilled [] _ (by simp)
      .nil hloads
    exact .intro sets this hsets

/-- A result goes onto the stack only when it is nowhere else. -/
theorem define_unsettled (h : Typing c e callee ts Γ) (hid : id ∈ Forest.ids ts)
    (hi : i ∈ (c.function.blockAt id).instrs) (hrepeat : i.isReproducible = false)
    (hd : Defines c e vs p code q) (hvs : vs ⊆ i.dst) (hp : p.Unsettled c) : q.Unsettled c := by
  cases hd with
  | nothing => exact hp
  | unused => exact hp
  | kept => exact hp
  | pushed v stack spilled _ hkept =>
    rintro w hw
    rcases List.mem_cons.1 hw with rfl | hw
    · have hv := h.prepared.replay?_of_define hid hi (hvs List.mem_cons_self)
      rw [hrepeat, if_neg Bool.false_ne_true] at hv
      simp [IsSettled, hkept, hv]
    · exact hp w hw

variable {labels : List Label}

theorem results_subset (i : Instr) : results i ⊆ i.dst := by
  unfold results
  split <;> try split
  all_goals simp

/-- Values on the stack are nowhere else, whatever the instruction. -/
theorem unsettled (h : Typing c e callee ts Γ) (hid : id ∈ Forest.ids ts)
    (hi : i ∈ (c.function.blockAt id).instrs) (he : Emits c e labels i p code q)
    (hp : p.Unsettled c) : q.Unsettled c := by
  cases he with
  | silent => exact hp
  | operation hoperands hcore hresults =>
    exact h.define_unsettled hid hi (isReproducible_of_computes hcore) hresults (results_subset i)
      (hoperands.unsettled hp)
  | jump _ hcopies =>
    cases hcopies with
    | intro sets hsources => exact hsources.unsettled hp
  | test _ _ hoperands => exact hoperands.unsettled hp
  | testCopies _ _ hoperands hcopies =>
    cases hcopies with
    | intro sets hsources => exact hsources.unsettled (hoperands.unsettled hp)

/-- A branch that finds its construct. -/
theorem lt_of_findIdx? {n : Nat} (h : labels.findIdx? (fun l ↦ l = labelOf i) = some n) :
    n < labels.length :=
  (List.findIdx?_eq_some_iff_findIdx_eq.1 h).1

theorem jump (h : Typing c e callee ts Γ) (hlabels : Γ.labels = labels.length)
    (hid : id ∈ Forest.ids ts) (hi : i ∈ (c.function.blockAt id).instrs) {n : Nat}
    (hcopies : Copies c e i.copies p code q)
    (hdepth : labels.findIdx? (fun l ↦ l = labelOf i) = some n) :
    CodeTyped Γ (code ++ [.br n]) (p.types c.function) τ := by
  refine (h.copies hid (copies_mem_copyGroups hi) hcopies).append ?_
  rw [codeTyped_singleton, Instruction.Typed, hlabels]
  exact lt_of_findIdx? hdepth

/-- **The code of an instruction is typed** by what lies on the simulated stack. -/
theorem instr (h : Typing c e callee ts Γ) (hlabels : Γ.labels = labels.length)
    (hid : id ∈ Forest.ids ts) (hi : i ∈ (c.function.blockAt id).instrs)
    (hp : p.Unsettled c) (he : Emits c e labels i p code q) :
    CodeTyped Γ code (p.types c.function) (q.types c.function) := by
  have htest (hop : i.op = .exitIf) : (i.args.map c.function.typeOf).reverse = [.i32] := by
    have htyped := (h.block hid).instrs i hi
    simp only [Function.TypesInstr, hop] at htyped
    rw [htyped.1, List.reverse_singleton]
  cases he with
  | silent => exact codeTyped_nil.2 rfl
  | operation hoperands hcore hresults =>
    exact ((h.schedule hoperands).append (h.compute hid hi hcore)).append (h.define hresults)
  | jump _ hcopies hdepth => exact h.jump hlabels hid hi hcopies hdepth
  | test hop _ hoperands hdepth =>
    refine (h.schedule hoperands).append ?_
    rw [htest hop, codeTyped_singleton, Instruction.Typed, hlabels]
    exact ⟨lt_of_findIdx? hdepth, rfl⟩
  | testCopies hop _ hoperands hcopies hdepth =>
    obtain ⟨rfl, hinner⟩ := h.inner.copies_nil hid (copies_mem_copyGroups hi) hcopies
      (hoperands.unsettled hp)
    refine (h.schedule hoperands).append ?_
    rw [htest hop, codeTyped_singleton, Instruction.Typed]
    refine ⟨hinner.append ?_, rfl⟩
    rw [codeTyped_singleton, Instruction.Typed]
    show _ < Γ.labels + 1
    rw [hlabels]
    exact lt_of_findIdx? hdepth

/-- Behind an instruction that control does not pass anything may stand. -/
theorem instr_terminates (h : Typing c e callee ts Γ) (hlabels : Γ.labels = labels.length)
    (hid : id ∈ Forest.ids ts) (hi : i ∈ (c.function.blockAt id).instrs)
    (hterminates : i.terminates) (he : Emits c e labels i p code q) :
    CodeTyped Γ code (p.types c.function) τ := by
  cases he with
  | silent hsilent =>
    unfold isSilent at hsilent
    unfold Instr.terminates at hterminates
    split at hsilent <;> simp_all
  | operation hoperands hcore hresults =>
    have hnone : results i = [] := by
      unfold Instr.terminates at hterminates
      unfold Computes at hcore
      unfold results
      split at hterminates <;> simp_all
    rw [hnone] at hresults
    cases hresults
    rw [List.append_nil]
    exact (h.schedule hoperands).append (h.compute_terminates hid hi hterminates hcore)
  | jump _ hcopies hdepth => exact h.jump hlabels hid hi hcopies hdepth
  | test hop => simp [Instr.terminates, hop] at hterminates
  | testCopies hop => simp [Instr.terminates, hop] at hterminates

/-- The code of instructions is typed, and anything may stand behind a last one that control does
not pass. -/
theorem instrs (h : Typing c e callee ts Γ) (hlabels : Γ.labels = labels.length)
    (hid : id ∈ Forest.ids ts) {is : List Instr} (his : is ⊆ (c.function.blockAt id).instrs)
    (he : EmitsAll c e labels is p code q) (hp : p.Unsettled c) :
    CodeTyped Γ code (p.types c.function) (q.types c.function) ∧ q.Unsettled c
      ∧ ∀ i ∈ is.getLast?, i.terminates → ∀ τ, CodeTyped Γ code (p.types c.function) τ := by
  induction he with
  | nil => exact ⟨codeTyped_nil.2 rfl, hp, by simp⟩
  | @cons i is p q r code rest hhead htail ih =>
    have hi := his List.mem_cons_self
    have htyped := h.instr hlabels hid hi hp hhead
    obtain ⟨hrest, hr, hlast⟩ := ih (List.subset_of_cons_subset his) (h.unsettled hid hi hhead hp)
    refine ⟨htyped.append hrest, hr, fun j hj hterminates τ ↦ ?_⟩
    cases htail with
    | nil =>
      obtain rfl : i = j := by simpa using hj
      rw [List.append_nil]
      exact h.instr_terminates hlabels hid hi hterminates hhead
    | cons =>
      rw [List.getLast?_cons_cons] at hj
      exact htyped.append (hlast j hj hterminates τ)

/-- What a basic block does not leave in locals it takes off the stack. -/
theorem basic (h : Typing c e callee ts Γ) (hlabels : Γ.labels = labels.length)
    (hid : id ∈ Forest.ids ts) {before behind : List Var}
    (he : EmitsBasic c e labels (c.function.blockAt id) before code behind) :
    Closed Γ code (c.function.blockAt id).isTerminated := by
  obtain ⟨body, r, hbody, hends⟩ := he
  obtain ⟨htyped, -, hlast⟩ := h.instrs hlabels hid (List.Subset.refl _) hbody (unsettled_nil _)
  split at hends
  · rename_i hterminated
    obtain ⟨rfl, -⟩ := hends
    unfold Block.isTerminated at hterminated
    rw [Bool.and_eq_true] at hterminated
    obtain ⟨-, hterminated⟩ := hterminated
    cases hl : (c.function.blockAt id).instrs.getLast? with
    | none => simp [hl] at hterminated
    | some i =>
      have hany (τ : List ValType) : CodeTyped Γ code [] τ :=
        hlast i hl (by simpa [hl] using hterminated) τ
      exact ⟨hany _, fun _ ↦ hany⟩
  · rename_i hterminated
    obtain ⟨exits, hexits, rfl⟩ := hends
    refine ⟨htyped.append ?_, fun hends ↦ absurd hends hterminated⟩
    exact h.copies (q := ⟨[], behind⟩) hid (by simp [Block.copyGroups]) hexits

/-- What a condition tests is a word. -/
theorem cond (h : Typing c e callee ts Γ) (hid : id ∈ Forest.ids ts)
    (hkind : (c.function.blockAt id).kind = .cond ∨ (c.function.blockAt id).kind = .branch)
    (hs : Schedules c e [(c.function.blockAt id).cond] ⟨[], spilled⟩ code ⟨[], spilled⟩) :
    CodeTyped Γ code [] [.i32] := by
  simpa [Placement.types, (h.block hid).cond hkind] using h.schedule hs

/-- A construct leaves nothing, and control gets behind it. -/
theorem closed_construct {test : List Instruction} (htest : CodeTyped Γ test [] σ)
    (hx : x.Typed Γ σ []) (hkind : (c.function.blockAt id).kind ≠ .basic) :
    Closed Γ (test ++ [x]) (c.function.blockAt id).isTerminated where
  typed := htest.append (codeTyped_singleton.2 hx)
  ended h := by simp [Block.isTerminated, hkind] at h

/-- **The code of blocks is typed**, whatever they are nested in. -/
theorem blocks :
    (∀ t : Tree, ∀ Γ labels before code behind, Typing c e callee ts Γ → Γ.labels = labels.length →
        t.ids ⊆ Forest.ids ts → t.Stored c.function → TreeEmits c e labels t before code behind →
          Closed Γ code (c.function.blockAt t.id).isTerminated) ∧
      ∀ us : Forest, ∀ Γ labels before code behind, Typing c e callee ts Γ →
        Γ.labels = labels.length → Forest.ids us ⊆ Forest.ids ts → Forest.Stored c.function us →
          ForestEmits c e labels us before code behind →
            Closed Γ code (endsTerminatedIn c.function us) := by
  refine Tree.induction ?basic ?cond ?branch ?loop ?breakable ?nil ?cons
  case basic =>
    intro id Γ labels before code behind h hlabels hids _ he
    exact h.basic hlabels (hids List.mem_cons_self) he
  case cond =>
    intro id body ih Γ labels before code behind h hlabels hids hstored he
    obtain ⟨hid, hids⟩ := List.cons_subset.1 hids
    obtain ⟨test, inner, htest, hinner, hcode⟩ := he
    have hkind := hstored.1.kind_eq
    have hbody := ih Γ.inner _ _ _ _ h.inner (congrArg (· + 1) hlabels) hids hstored.2 hinner
    have htest := h.cond hid (.inl hkind) htest
    split at hcode
    · subst hcode
      refine closed_construct htest ?_ (by simp [Tree.id, hkind])
      rw [Instruction.Typed]
      exact ⟨hbody.typed, rfl⟩
    · obtain ⟨around, haround, rfl⟩ := hcode
      refine closed_construct htest ?_ (by simp [Tree.id, hkind])
      rw [Instruction.Typed]
      exact ⟨hbody.typed, h.inner.copies hid (by simp [Block.copyGroups]) haround, rfl⟩
  case branch =>
    intro id body other ih ih' Γ labels before code behind h hlabels hids hstored he
    obtain ⟨hid, hids⟩ := List.cons_subset.1 hids
    obtain ⟨hids, hids'⟩ := List.append_subset.1 hids
    obtain ⟨test, inner, inner', r, htest, hinner, hinner', rfl⟩ := he
    have hkind := hstored.1.kind_eq
    have hbody := ih Γ.inner _ _ _ _ h.inner (congrArg (· + 1) hlabels) hids hstored.2.1 hinner
    have hother := ih' Γ.inner _ _ _ _ h.inner (congrArg (· + 1) hlabels) hids' hstored.2.2 hinner'
    refine closed_construct (h.cond hid (.inr hkind) htest) ?_ (by simp [Tree.id, hkind])
    rw [Instruction.Typed]
    exact ⟨hbody.typed, hother.typed, rfl⟩
  case loop =>
    intro id body ih Γ labels before code behind h hlabels hids hstored he
    obtain ⟨hid, hids⟩ := List.cons_subset.1 hids
    obtain ⟨entry, inner, hentry, hinner, rfl⟩ := he
    have hbody := ih Γ.inner.inner _ _ _ _ h.inner.inner (congrArg (· + 2) hlabels) hids
      hstored.2 hinner
    refine closed_construct (h.copies hid (by simp [Block.copyGroups]) hentry) ?_
      (by simp [Tree.id, hstored.1.kind_eq])
    rw [Instruction.Typed, codeTyped_singleton, Instruction.Typed]
    refine ⟨⟨?_, rfl⟩, rfl⟩
    split
    · rw [List.append_nil]
      exact hbody.typed
    · refine hbody.typed.append ?_
      rw [codeTyped_singleton, Instruction.Typed]
      exact Nat.succ_pos _
  case breakable =>
    intro id body ih Γ labels before code behind h hlabels hids hstored he
    obtain ⟨hid, hids⟩ := List.cons_subset.1 hids
    obtain ⟨inner, hinner, rfl⟩ := he
    have hbody := ih Γ.inner _ _ _ _ h.inner (congrArg (· + 1) hlabels) hids hstored.2 hinner
    refine closed_construct (codeTyped_nil.2 rfl : CodeTyped Γ [] [] []) ?_
      (by simp [Tree.id, hstored.1.kind_eq])
    rw [Instruction.Typed]
    exact ⟨hbody.typed, rfl⟩
  case nil =>
    rintro Γ labels before code behind - - - - ⟨rfl, -⟩
    exact ⟨codeTyped_nil.2 rfl, fun hends ↦ absurd hends Bool.false_ne_true⟩
  case cons =>
    intro t us ih ihs Γ labels before code behind h hlabels hids hstored he
    obtain ⟨hids, hids'⟩ := List.append_subset.1 hids
    obtain ⟨head, tail, r, hhead, htail, rfl⟩ := he
    have hfirst := ih Γ _ _ _ _ h hlabels hids hstored.1 hhead
    have hrest := ihs Γ _ _ _ _ h hlabels hids' hstored.2 htail
    refine ⟨hfirst.typed.append hrest.typed, fun hends τ ↦ ?_⟩
    cases us with
    | nil =>
      obtain ⟨rfl, -⟩ := htail
      rw [List.append_nil]
      exact hfirst.ended hends τ
    | cons u us =>
      refine hfirst.typed.append (hrest.ended ?_ τ)
      simpa [endsTerminatedIn, List.getLast?_cons_cons] using hends

end Typing

end

/-! ## The body -/

/-- **The code of a function is valid**: the body that is generated for it leaves what the function
promises, with every operand and every local of the right type and every branch in range. -/
theorem Typing.codeTyped_of_body {c : CodeContext} {ts : Forest}
    {callee : Text → Option Signature} {types : List FuncType} {b : Body} {e : CodeState}
    {Γ : TypeContext} (h : Typing c e callee ts Γ) (hlabels : Γ.labels = c.labels.length)
    (hrun : body.run c { types := types } = (.ok b, e)) :
    CodeTyped Γ b.code [] Γ.results.reverse := by
  have hcode := (meets_codeOf types h.prepared.laidOut.trees_eq).ensures.of_eq hrun
  obtain ⟨code, q, hemits, -, -, rfl⟩ := hcode
  have hclosed := Typing.blocks.2 ts Γ c.labels _ _ _ h hlabels (List.Subset.refl _)
    h.prepared.laidOut.stored hemits
  show CodeTyped Γ (code ++ closing c.function ts) [] Γ.results.reverse
  unfold closing
  split <;> rename_i hcloses
  · refine hclosed.typed.append ?_
    rw [codeTyped_singleton, Instruction.Typed]
    trivial
  · rw [List.append_nil]
    by_cases hends : endsTerminatedIn c.function ts
    · exact hclosed.ended hends _
    · have hnone : c.function.result = .none := by simpa [hends] using hcloses
      rw [h.results_eq]
      simpa [FuncType.ofSignature, Function.signature, hnone] using hclosed.typed

end WasmBackend.Wasm.Codegen
