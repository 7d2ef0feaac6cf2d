import WasmBackend.Proofs.Lowering.Units

/-!
# Instructions define at most one variable

An instruction has room for several results, but code that is lowered never uses it: further slots
of a result come from scratch memory, and an aggregate is copied slot by slot.  `Singly` says of a
step that it keeps this so; there is one rule for every way steps are put together and one lemma
for every function of the lowering that emits anything.
-/

namespace WasmBackend

open Ir (BlockId BlockKind Instr Opcode Var)
open Stage (Ensures)

/-- Every instruction of the block defines at most one variable. -/
def Ir.Block.HasSingleResults (b : Ir.Block) : Prop :=
  ∀ i ∈ b.instrs, i.dst.length ≤ 1

/-- Every instruction of the function defines at most one variable. -/
def Ir.Function.HasSingleResults (f : Ir.Function) : Prop :=
  ∀ b ∈ f.blocks, b.HasSingleResults

namespace Lowering

variable {α β : Type} {x : M α} {sub : Sub}

/-- Every instruction lowered so far defines at most one variable, in the function that is being
lowered and in those that the unit has. -/
structure SingleResults (s : Lowering) : Prop where
  code : ∀ b ∈ s.blocks, b.HasSingleResults
  funcs : ∀ f ∈ s.unit.funcs, f.HasSingleResults

/-- Whatever the frame, the step adds no instruction that defines several variables. -/
def Singly (x : M α) : Prop :=
  ∀ (frame : Frame) (s : Lowering), s.SingleResults → Ensures (x frame) s fun _ t ↦ t.SingleResults

/-! ## One rule for every way to put steps together -/

theorem Aside.singleResults {s t : Lowering} (h : s.Aside t) (hs : s.SingleResults) :
    t.SingleResults :=
  ⟨by rw [h.blocks]; exact hs.code, by rw [h.funcs]; exact hs.funcs⟩

/-- A step that touches no block adds no instruction. -/
theorem Quiet.singly (h : Quiet x) : Singly x :=
  fun frame s hs ↦ (h frame s).imp fun _ _ ht ↦ ht.singleResults hs

theorem singly_pure (a : α) : Singly (pure a) :=
  (quiet_pure a).singly

theorem singly_throw (e : LoweringFault) : Singly (throw e : M α) :=
  quiet_throw.singly

theorem Singly.bind {f : α → M β} (hx : Singly x) (hf : ∀ a, Singly (f a)) :
    Singly (x >>= f) :=
  fun frame s hs ↦ ensures_bind.2 ((hx frame s hs).imp fun a t ht ↦ hf a frame t ht)

theorem singly_get {f : Lowering → M β} (h : ∀ s, Singly (f s)) : Singly (get >>= f) :=
  fun frame s hs ↦ h s frame s hs

theorem singly_read {f : Frame → M β} (h : ∀ frame, Singly (f frame)) : Singly (read >>= f) :=
  fun frame s hs ↦ h frame frame s hs

theorem singly_withReader {g : Frame → Frame} (h : Singly x) : Singly (withReader g x) :=
  fun frame s hs ↦ h (g frame) s hs

theorem singly_modify {g : Lowering → Lowering}
    (h : ∀ s : Lowering, s.SingleResults → (g s).SingleResults) : Singly (modify g) :=
  fun _ s hs ↦ h s hs

theorem singly_discard (h : Singly x) : Singly (discard x) := by
  show Singly (Functor.map (fun _ ↦ PUnit.unit) x)
  rw [map_eq_pure_bind]
  exact h.bind fun _ ↦ singly_pure _

theorem singly_mapM {f : α → M β} {l : List α} (h : ∀ a ∈ l, Singly (f a)) :
    Singly (l.mapM f) := by
  induction l with
  | nil => exact singly_pure []
  | cons a l ih =>
    rw [List.mapM_cons]
    refine (h a List.mem_cons_self).bind fun b ↦ ?_
    exact (ih fun c hc ↦ h c (List.mem_cons_of_mem a hc)).bind fun bs ↦ singly_pure (b :: bs)

theorem singly_foldlM {f : β → α → M β} {l : List α} {b : β}
    (h : ∀ b, ∀ a ∈ l, Singly (f b a)) : Singly (l.foldlM f b) := by
  induction l generalizing b with
  | nil => exact singly_pure b
  | cons a l ih =>
    rw [List.foldlM_cons]
    exact (h b a List.mem_cons_self).bind fun b ↦ ih fun b c hc ↦ h b c (List.mem_cons_of_mem a hc)

theorem singly_forIn {f : α → β → M (ForInStep β)} {l : List α} {b : β}
    (h : ∀ a ∈ l, ∀ b, Singly (f a b)) : Singly (forIn l b f) := by
  induction l generalizing b with
  | nil => exact singly_pure b
  | cons a l ih =>
    rw [List.forIn_cons]
    refine (h a List.mem_cons_self b).bind fun r ↦ ?_
    cases r with
    | done b => exact singly_pure b
    | yield b => exact ih fun c hc ↦ h c (List.mem_cons_of_mem a hc)

theorem singly_internalHere (message : Text) : Singly (internalHere message : M α) :=
  (quiet_internalHere message).singly

/-- Nothing behind a broken invariant of the function happens. -/
theorem singly_internalHere_bind (message : Text) {f : α → M β} :
    Singly (internalHere message >>= f) :=
  fun _ _ _ ↦ trivial

/-! ## Instructions and blocks -/

theorem quiet_newVar (p : Prim) : Quiet (newVar p) :=
  fun frame s ↦ (ensures_newVar p frame s).imp fun _ _ h ↦ h.1

theorem quiet_newVars (ps : List Prim) : Quiet (newVars ps) :=
  quiet_mapM fun p _ ↦ quiet_newVar p

/-- Blocks may be changed as long as each one's instructions define at most one variable. -/
theorem SingleResults.modify {s : Lowering} (hs : s.SingleResults) (id : ℕ)
    {f : Ir.Block → Ir.Block} (hf : ∀ b, b.HasSingleResults → (f b).HasSingleResults) :
    SingleResults { s with blocks := s.blocks.modify id f } := by
  refine ⟨fun b hb ↦ ?_, hs.funcs⟩
  obtain ⟨j, hj, rfl⟩ := Array.mem_iff_getElem.1 hb
  rw [Array.getElem_modify]
  have hold := hs.code _ (Array.getElem_mem (Array.size_modify ▸ hj))
  split
  · exact hf _ hold
  · exact hold

theorem singly_emit {i : Instr} (h : i.dst.length ≤ 1) : Singly (emit i) := by
  refine singly_modify fun s hs ↦ hs.modify _ fun b hb j hj ↦ ?_
  obtain hold | hnew := List.mem_append.1 hj
  · exact hb j hold
  · exact List.mem_singleton.1 hnew ▸ h

theorem singly_newBlock (kind : BlockKind) : Singly (newBlock kind) := by
  refine singly_get fun _ ↦ Singly.bind (singly_modify fun s hs ↦ ⟨fun b hb ↦ ?_, hs.funcs⟩)
    fun _ ↦ singly_pure _
  obtain hold | rfl := Array.mem_push.1 hb
  · exact hs.code b hold
  · exact fun i hi ↦ absurd hi List.not_mem_nil

theorem singly_openBasic : Singly openBasic :=
  (singly_newBlock .basic).bind fun _ ↦ singly_modify fun _ hs ↦ ⟨hs.code, hs.funcs⟩

theorem singly_updateBlock (id : BlockId) {f : Ir.Block → Ir.Block}
    (hf : ∀ b, (f b).instrs = b.instrs) : Singly (updateBlock id f) := by
  refine singly_modify fun s hs ↦ hs.modify _ fun b hb ↦ ?_
  unfold Ir.Block.HasSingleResults
  rw [hf b]
  exact hb

theorem singly_nested {body : M Unit} (hbody : Singly body) : Singly (nested body) := by
  refine Singly.bind (singly_modify fun _ hs ↦ ⟨hs.code, hs.funcs⟩) fun _ ↦ ?_
  refine singly_openBasic.bind fun _ ↦ hbody.bind fun _ ↦ singly_get fun s ↦ ?_
  exact Singly.bind (singly_modify fun _ hs ↦ ⟨hs.code, hs.funcs⟩) fun _ ↦ singly_pure _

theorem singly_constInto (v : Var) (p : Prim) (n : Int64) : Singly (constInto v p n) := by
  unfold constInto
  split
  · exact singly_emit (Nat.le_refl 1)
  · exact singly_emit (Nat.le_refl 1)

theorem singly_constant (p : Prim) (n : Int64) : Singly (constant p n) :=
  (quiet_newVar p).singly.bind fun v ↦ (singly_constInto v p n).bind fun _ ↦ singly_pure v

theorem singly_address (zone : Ir.Zone) (index : ℕ) : Singly (address zone index) :=
  (quiet_newVar .pointer).singly.bind fun v ↦
    Singly.bind (singly_emit (Nat.le_refl 1)) fun _ ↦ singly_pure v

theorem singly_operation (op : Opcode) (storage result : Prim) (args : List Var) :
    Singly (operation op storage result args) :=
  (quiet_newVar result).singly.bind fun v ↦
    Singly.bind (singly_emit (Nat.le_refl 1)) fun _ ↦ singly_pure v

/-! ## Values -/

theorem singly_place? (v : Value) : Singly (place? v) := by
  cases v with
  | direct type slots => exact singly_pure _
  | relative type base offset => exact singly_pure _
  | global type index offset =>
    exact (singly_address .global index).bind fun base ↦ singly_pure _

/-- Each slot is loaded by an instruction of its own. -/
theorem singly_readValue (v : Value) : Singly (readValue v) := by
  unfold readValue
  split
  · exact singly_pure _
  refine (singly_place? _).bind fun place ↦ (quiet_expect place).singly.bind fun p ↦ ?_
  refine (quiet_typeOf _).singly.bind fun t ↦ ?_
  refine (quiet_ofLayout t.entries).singly.bind fun entries ↦ ?_
  refine singly_mapM fun e _ ↦ (quiet_newVar e.prim).singly.bind fun dst ↦ ?_
  refine (quiet_offset32 e.offset).singly.bind fun at32 ↦ ?_
  exact Singly.bind (singly_emit (Nat.le_refl 1)) fun _ ↦ singly_pure dst

/-- Each slot is copied or stored by an instruction of its own. -/
theorem singly_writeValue (dst : Value) (src : List Var) : Singly (writeValue dst src) := by
  unfold writeValue
  split
  · dsimp only
    split
    · exact singly_internalHere_bind _
    refine (singly_forIn fun q _ _ ↦ ?_).bind fun _ ↦ singly_pure _
    split
    · exact Singly.bind (singly_emit (Nat.le_refl 1)) fun _ ↦ singly_pure _
    · exact singly_pure _
  · refine (singly_place? _).bind fun place ↦ (quiet_expect place).singly.bind fun p ↦ ?_
    refine (quiet_typeOf _).singly.bind fun t ↦ ?_
    refine (quiet_ofLayout t.entries).singly.bind fun entries ↦ ?_
    dsimp only
    split
    · exact singly_internalHere_bind _
    refine (singly_forIn fun q _ _ ↦ ?_).bind fun _ ↦ singly_pure _
    refine (quiet_offset32 q.1.offset).singly.bind fun at32 ↦ ?_
    exact Singly.bind (singly_emit (Nat.zero_le 1)) fun _ ↦ singly_pure _

theorem quiet_instanceMember (pointer : Var) (m : Member) : Quiet (instanceMember pointer m) :=
  (quiet_offset32 m.offset).bind fun _ ↦ quiet_pure _

theorem singly_selectMember (v : Value) (name : Text) : Singly (selectMember v name) := by
  refine (quiet_typeOf v.type).singly.bind fun t ↦ ?_
  split
  · exact singly_throw _
  rename_i m _
  split
  · refine (singly_readValue v).bind fun vars ↦ (quiet_expect _).singly.bind fun pointer ↦ ?_
    exact (quiet_instanceMember pointer m).singly
  · split
    · refine (quiet_typeOf m.type).singly.bind fun t' ↦ ?_
      refine (quiet_ofLayout t'.slotCount).singly.bind fun n ↦ ?_
      split
      · exact singly_pure _
      · exact singly_throw _
    · exact (quiet_offset32 m.offset).singly.bind fun _ ↦ singly_pure _
    · exact (quiet_offset32 m.offset).singly.bind fun _ ↦ singly_pure _
  · exact singly_throw _

theorem singly_deliver (vars : List Var) (h : Handle) (dst : Option Value) :
    Singly (deliver vars h dst) := by
  cases dst with
  | none => exact singly_pure _
  | some d => exact (singly_writeValue d vars).bind fun _ ↦ singly_pure d

theorem singly_deliverValue (v : Value) (dst : Option Value) : Singly (deliverValue v dst) := by
  cases dst with
  | none => exact singly_pure v
  | some d =>
    refine (singly_readValue v).bind fun vars ↦ ?_
    exact (singly_writeValue d vars).bind fun _ ↦ singly_pure d

/-! ## Calls -/

/-- A call defines the first slot of its result, if there is one; the others are loaded. -/
theorem singly_emitCall {call : Instr} (hcall : call.dst.length ≤ 1) (result : Handle) :
    Singly (emitCall call result) := by
  refine (quiet_slotsOf result).singly.bind fun slots ↦ ?_
  cases slots with
  | nil => exact (singly_emit hcall).bind fun _ ↦ singly_pure _
  | cons p rest =>
    refine (quiet_newVar p).singly.bind fun v ↦ Singly.bind (singly_emit (Nat.le_refl 1)) fun _ ↦ ?_
    refine (singly_mapM fun q _ ↦ ?_).bind fun others ↦ singly_pure _
    refine (quiet_scratchSlot (q.2 + 1) q.1).singly.bind fun slot ↦ ?_
    refine (singly_address .scratch slot).bind fun base ↦ ?_
    refine (quiet_newVar q.1).singly.bind fun w ↦ ?_
    exact Singly.bind (singly_emit (Nat.le_refl 1)) fun _ ↦ singly_pure w

theorem singly_callFunction (callee : Text) (args : List Var) (result : Handle) :
    Singly (callFunction callee args result) := by
  refine singly_emitCall ?_ result
  exact Nat.zero_le 1

theorem singly_allocate (size : ℕ) : Singly (allocate size) := by
  refine (singly_constant .pointer _).bind fun n ↦ (quiet_onStore _).singly.bind fun result ↦ ?_
  refine (singly_callFunction allocFunction [n] result).bind fun vs ↦ ?_
  exact (quiet_expect _).singly

theorem singly_absolute (x : Var) (storage : Prim) {dst : List Var} (hdst : dst.length ≤ 1) :
    Singly (absolute x storage dst) := by
  refine (singly_constant storage _).bind fun shift ↦ ?_
  refine (singly_operation .shr storage.asSigned storage [x, shift]).bind fun sign ↦ ?_
  refine (singly_operation .xor storage storage [x, sign]).bind fun flipped ↦ ?_
  exact singly_emit hdst

/-- The result of an intrinsic is one variable at most, whatever its type. -/
theorem singly_lowerNative (name : Text) (args : List Var) (result : Handle) :
    Singly (lowerNative name args result) := by
  have hrest (dst : List Var) (hdst : dst.length ≤ 1) : Singly (do
      let storage ← nativeStorage args
      if name = "abs" ∧ !storage.isFloat then
        let x ← first args
        absolute x storage dst
      else
        emit { op := .native, dst := dst, args := args, callee := name, storage := storage }
      return dst) := by
    refine (quiet_nativeStorage args).singly.bind fun storage ↦ ?_
    dsimp only
    split
    · refine (quiet_expect _).singly.bind fun x ↦ ?_
      exact (singly_absolute x storage hdst).bind fun _ ↦ singly_pure dst
    · exact (singly_emit hdst).bind fun _ ↦ singly_pure dst
  unfold lowerNative nativeResult
  rw [bind_assoc]
  refine (quiet_slotsOf result).singly.bind fun slots ↦ ?_
  cases slots with
  | nil =>
    dsimp only
    rw [pure_bind]
    exact hrest [] (Nat.zero_le 1)
  | cons p rest =>
    dsimp only
    rw [bind_assoc]
    refine (quiet_newVar p).singly.bind fun v ↦ ?_
    rw [pure_bind]
    exact hrest [v] (Nat.le_refl 1)

/-! ## Forms of expressions -/

/-- Lowering a subexpression adds no instruction that defines several variables. -/
def SubSingly (sub : Sub) : Prop :=
  ∀ (id : ExprId) (dst : Option Value), Singly (sub id dst)

section

variable (hsub : SubSingly sub)

include hsub

theorem singly_rvalue (id : ExprId) : Singly (rvalue sub id) :=
  (hsub id none).bind fun v ↦ singly_readValue v

/-- The first variable of a subexpression. -/
theorem singly_operand (id : ExprId) {f : Var → M β} (hf : ∀ v, Singly (f v)) :
    Singly (do f (← first (← rvalue sub id))) :=
  (singly_rvalue hsub id).bind fun _ ↦ (quiet_expect _).singly.bind hf

theorem singly_arguments (ids : List ExprId) : Singly (arguments sub ids) :=
  (singly_mapM fun id _ ↦ singly_rvalue hsub id).bind fun _ ↦ singly_pure _

theorem singly_lowerCall (e : Expr) (result : Handle) : Singly (lowerCall sub e result) := by
  refine quiet_program.singly.bind fun p ↦ ?_
  split
  · split
    · exact singly_internalHere _
    · split
      · exact (singly_arguments hsub e.args).bind fun args ↦ singly_lowerNative _ args result
      · refine (quiet_calleeName e).singly.bind fun name ↦ ?_
        exact (singly_arguments hsub e.args).bind fun args ↦ singly_callFunction name args result
  · exact singly_internalHere _

theorem singly_lowerCallValue (e : Expr) (result : Handle) :
    Singly (lowerCallValue sub e result) := by
  refine singly_operand hsub e.x fun callee ↦ (quiet_exprType e.x).singly.bind fun h ↦ ?_
  refine (quiet_typeOf h).singly.bind fun t ↦ ?_
  dsimp only
  split
  · exact singly_internalHere_bind _
  · refine (quiet_signatureOf t.params t.result).singly.bind fun sig ↦ ?_
    refine (singly_arguments hsub e.args).bind fun args ↦ singly_emitCall ?_ result
    exact Nat.zero_le 1

theorem singly_lowerMethodCall (e : Expr) (result : Handle) :
    Singly (lowerMethodCall sub e result) := by
  refine (quiet_exprType e.x).singly.bind fun owner ↦ (quiet_typeOf owner).singly.bind fun t ↦ ?_
  cases t.method? e.name with
  | none => exact singly_throw _
  | some decl =>
    refine (singly_rvalue hsub e.x).bind fun receiver ↦ ?_
    refine (singly_arguments hsub e.args).bind fun args ↦ ?_
    exact (quiet_onStore _).singly.bind fun name ↦ singly_callFunction name _ result

theorem singly_lowerOperator (e : Expr) (result : Handle) :
    Singly (lowerOperator sub e result) := by
  refine (quiet_exprType e.x).singly.bind fun owner ↦ (quiet_typeOf owner).singly.bind fun t ↦ ?_
  cases t.operator? e.op with
  | none => exact singly_throw _
  | some decl =>
    refine (singly_rvalue hsub e.x).bind fun left ↦ ?_
    have hcall (right : List Var) : Singly (do
        let name ← onStore (TypeStore.memberName owner decl)
        callFunction name (left ++ right) result) :=
      (quiet_onStore _).singly.bind fun name ↦ singly_callFunction name _ result
    dsimp only
    split
    · exact hcall []
    · exact (singly_rvalue hsub e.y).bind hcall

theorem singly_lowerLogical (e : Expr) : Singly (lowerLogical sub e) := by
  refine (quiet_newVar .bool).singly.bind fun r ↦ (singly_newBlock .breakable).bind fun block ↦ ?_
  refine (singly_nested ?_).bind fun body ↦ Singly.bind (singly_updateBlock block fun _ ↦ rfl)
    fun _ ↦ singly_openBasic.bind fun _ ↦ singly_pure r
  refine singly_operand hsub e.x fun x ↦ Singly.bind (singly_emit (Nat.le_refl 1)) fun _ ↦ ?_
  have hright (test : Var) : Singly (do
      emit { op := .exitIf, args := [test], target := block }
      openBasic
      let y ← first (← rvalue sub e.y)
      emit { op := .copy, dst := [r], args := [y] }) := by
    refine Singly.bind (singly_emit (Nat.zero_le 1)) fun _ ↦ singly_openBasic.bind fun _ ↦ ?_
    exact singly_operand hsub e.y fun y ↦ singly_emit (Nat.le_refl 1)
  dsimp only
  split
  · refine (quiet_primOf x).singly.bind fun p ↦ ?_
    exact (singly_operation .eqz p .bool [x]).bind hright
  · exact hright x

theorem singly_lowerBinary (e : Expr) (t : ConcreteType) : Singly (lowerBinary sub e t) := by
  unfold lowerBinary
  split
  · exact singly_lowerLogical hsub e
  split
  · exact singly_internalHere _
  rename_i op _
  refine singly_operand hsub e.x fun x ↦ singly_operand hsub e.y fun y ↦ ?_
  refine (quiet_primOf x).singly.bind fun p ↦ ?_
  have hresult : Singly (do
      let result ← expect (← ofLayout t.slots).head?
      operation op p result [x, y]) := by
    refine (quiet_ofLayout t.slots).singly.bind fun slots ↦ (quiet_expect _).singly.bind fun r ↦ ?_
    exact singly_operation op p r [x, y]
  dsimp only
  split
  · exact (quiet_report _).singly.bind fun _ ↦ hresult
  · exact hresult

theorem singly_lowerUnary (e : Expr) (result : Prim) : Singly (lowerUnary sub e result) := by
  refine singly_operand hsub e.x fun x ↦ (quiet_primOf x).singly.bind fun p ↦ ?_
  split
  · split
    · exact singly_operation .neg p result [x]
    · exact (singly_constant p 0).bind fun base ↦ singly_operation .sub p result [base, x]
  · exact singly_operation .eqz p result [x]
  · exact (singly_constant p (-1)).bind fun ones ↦ singly_operation .xor p result [x, ones]
  · exact singly_internalHere _

theorem singly_lowerConvert (e : Expr) (t : ConcreteType) : Singly (lowerConvert sub e t) := by
  refine (singly_rvalue hsub e.x).bind fun src ↦ ?_
  refine (quiet_ofLayout t.slots).singly.bind fun target ↦ ?_
  dsimp only
  split
  · exact singly_internalHere_bind _
  refine singly_mapM fun q _ ↦ (quiet_primOf q.1).singly.bind fun source ↦ ?_
  refine (quiet_newVar q.2).singly.bind fun w ↦ ?_
  split
  · exact Singly.bind (singly_emit (Nat.le_refl 1)) fun _ ↦ singly_pure w
  · exact Singly.bind (singly_emit (Nat.le_refl 1)) fun _ ↦ singly_pure w

omit hsub in
theorem singly_lowerString (id : ExprId) (e : Expr) (t : ConcreteType) :
    Singly (lowerString id e t) := by
  refine (quiet_checkLiteral id e).singly.bind fun _ ↦ ?_
  refine (quiet_dataSegment e.str.bytes).singly.bind fun segment ↦ ?_
  refine (quiet_ofLayout t.slots).singly.bind fun slots ↦ ?_
  split
  · exact (singly_address .data segment).bind fun _ ↦ singly_pure _
  · refine (singly_address .data segment).bind fun _ ↦ ?_
    exact (singly_constant _ _).bind fun _ ↦ singly_pure _
  · exact (quiet_report _).singly.bind fun _ ↦ (quiet_newVars _).singly

theorem singly_lowerConstruct (e : Expr) (h : Handle) (dst : Option Value) :
    Singly (lowerConstruct sub e h dst) := by
  refine (quiet_typeOf h).singly.bind fun t ↦ ?_
  dsimp only
  split
  · refine (quiet_onStore _).singly.bind fun name ↦ ?_
    refine (singly_arguments hsub e.args).bind fun args ↦ ?_
    exact (singly_callFunction name args h).bind fun vars ↦ singly_deliver vars h dst
  split
  · exact singly_internalHere_bind _
  split
  · have hfill (target : Value) : Singly (do
        for p in e.args.zip t.members do
          let place ← selectMember target p.2.name
          discard (sub p.1 (some place))
        return target) := by
      refine (singly_forIn fun p _ _ ↦ ?_).bind fun _ ↦ singly_pure target
      refine (singly_selectMember target p.2.name).bind fun place ↦ ?_
      exact (singly_discard (hsub p.1 (some place))).bind fun _ ↦ singly_pure _
    cases dst with
    | some d => exact hfill d
    | none =>
      refine (quiet_ofLayout t.slots).singly.bind fun slots ↦ ?_
      exact (quiet_newVars slots).singly.bind fun vars ↦ hfill (.direct h vars)
  · refine (singly_allocate t.size).bind fun pointer ↦ ?_
    refine (singly_forIn fun p _ _ ↦ ?_).bind fun _ ↦ singly_deliver [pointer] h dst
    refine (quiet_instanceMember pointer p.2).singly.bind fun place ↦ ?_
    exact (singly_discard (hsub p.1 (some place))).bind fun _ ↦ singly_pure _
  · exact singly_internalHere _

omit hsub in
theorem quiet_localVars (id : LocalId) : Quiet (localVars id) :=
  quiet_read fun _ ↦ quiet_expect _

theorem singly_exprStep (id : ExprId) (e : Expr) (dst : Option Value) :
    Singly (exprStep sub id e dst) := by
  refine (quiet_resolve e.type).singly.bind fun h ↦ (quiet_typeOf h).singly.bind fun t ↦ ?_
  have hdeliver {x : M Var} (hx : Singly x) : Singly (do deliver [← x] h dst) :=
    hx.bind fun v ↦ singly_deliver [v] h dst
  have hdeliverAll {x : M (List Var)} (hx : Singly x) : Singly (do deliver (← x) h dst) :=
    hx.bind fun vars ↦ singly_deliver vars h dst
  have hprim {f : Prim → M Value} (hf : ∀ p, Singly (f p)) :
      Singly (do f (← expect (← ofLayout t.slots).head?)) :=
    (quiet_ofLayout t.slots).singly.bind fun slots ↦ (quiet_expect _).singly.bind hf
  cases e.kind with
  | int => exact hprim fun p ↦ hdeliver (singly_constant p e.int)
  | float =>
    refine hprim fun p ↦ (quiet_newVar p).singly.bind fun v ↦ ?_
    exact Singly.bind (singly_emit (Nat.le_refl 1)) fun _ ↦ singly_deliver [v] h dst
  | bool => exact hdeliver (singly_constant .bool _)
  | null => exact hdeliver (singly_constant .pointer 0)
  | string => exact hdeliverAll (singly_lowerString id e t)
  | loc => exact (quiet_localVars e.loc).singly.bind fun vars ↦ singly_deliverValue _ dst
  | self => exact singly_read fun frame ↦ singly_deliverValue _ dst
  | global => exact (quiet_globalIndex e.decl).singly.bind fun index ↦ singly_deliverValue _ dst
  | funcRef =>
    refine (quiet_newVar .pointer).singly.bind fun v ↦ ?_
    refine (quiet_calleeName e).singly.bind fun name ↦ ?_
    refine Singly.bind (singly_modify fun _ hs ↦ ⟨hs.code, hs.funcs⟩) fun _ ↦ ?_
    exact Singly.bind (singly_emit (Nat.le_refl 1)) fun _ ↦ singly_deliver [v] h dst
  | call => exact hdeliverAll (singly_lowerCall hsub e h)
  | callValue => exact hdeliverAll (singly_lowerCallValue hsub e h)
  | methodCall => exact hdeliverAll (singly_lowerMethodCall hsub e h)
  | operator => exact hdeliverAll (singly_lowerOperator hsub e h)
  | member =>
    refine (hsub e.x none).bind fun whole ↦ (singly_selectMember whole e.name).bind fun part ↦ ?_
    exact singly_deliverValue part dst
  | binary => exact hdeliver (singly_lowerBinary hsub e t)
  | unary => exact hprim fun result ↦ hdeliver (singly_lowerUnary hsub e result)
  | convert => exact hdeliverAll (singly_lowerConvert hsub e t)
  | construct => exact singly_lowerConstruct hsub e h dst
  | alloc =>
    refine (quiet_typeOf t.elem).singly.bind fun t' ↦ ?_
    refine (quiet_ofLayout t'.valueSize).singly.bind fun size ↦ ?_
    refine (singly_allocate size).bind fun pointer ↦ ?_
    split
    · exact (singly_discard (hsub _ _)).bind fun _ ↦ singly_deliver [pointer] h dst
    · exact singly_deliver [pointer] h dst
  | deref => exact singly_operand hsub e.x fun base ↦ singly_deliverValue _ dst
  | unknown code hcode => exact singly_internalHere _

end

theorem singly_lowerWithin (depth : ℕ) : SubSingly (lowerWithin depth) := by
  induction depth with
  | zero => exact fun _ _ ↦ singly_throw _
  | succ depth ih =>
    refine fun id dst ↦ quiet_program.singly.bind fun p ↦ ?_
    split
    · exact singly_internalHere _
    · exact singly_exprStep ih id _ dst

/-- Lowering an expression adds no instruction that defines several variables. -/
theorem singly_lowerExpr : SubSingly lowerExpr :=
  fun id dst ↦ quiet_program.singly.bind fun _ ↦ singly_lowerWithin _ id dst

/-! ## Statements -/

theorem singly_lowerReturn (vars : List Var) : Singly (lowerReturn vars) := by
  cases vars with
  | nil => exact singly_emit (Nat.zero_le 1)
  | cons v rest =>
    refine Singly.bind (singly_forIn fun q _ _ ↦ ?_) fun _ ↦ singly_emit (Nat.zero_le 1)
    refine (quiet_primOf q.1).singly.bind fun p ↦ ?_
    refine (quiet_scratchSlot (q.2 + 1) p).singly.bind fun slot ↦ ?_
    refine (singly_address .scratch slot).bind fun base ↦ ?_
    exact Singly.bind (singly_emit (Nat.zero_le 1)) fun _ ↦ singly_pure _

theorem singly_targetWithin (depth : ℕ) (id : ExprId) : Singly (targetWithin depth id) := by
  induction depth generalizing id with
  | zero => exact singly_throw _
  | succ depth ih =>
    refine quiet_program.singly.bind fun p ↦ (quiet_expect _).singly.bind fun e ↦ ?_
    refine (quiet_resolve e.type).singly.bind fun h ↦ ?_
    split
    · exact (quiet_localVars e.loc).singly.bind fun _ ↦ singly_pure _
    · exact singly_read fun _ ↦ singly_pure _
    · exact (quiet_globalIndex e.decl).singly.bind fun _ ↦ singly_pure _
    · exact singly_operand singly_lowerExpr e.x fun _ ↦ singly_pure _
    · refine (quiet_exprType e.x).singly.bind fun owner ↦ ?_
      refine (quiet_typeOf owner).singly.bind fun t ↦ ?_
      split
      · exact (singly_lowerExpr e.x none).bind fun v ↦ singly_selectMember v e.name
      · exact (ih e.x).bind fun v ↦ singly_selectMember v e.name
    · exact singly_internalHere _

theorem singly_clear (vars : List Var) : Singly (clear vars) := by
  refine (singly_forIn fun v _ _ ↦ ?_).bind fun _ ↦ singly_pure _
  refine (quiet_primOf v).singly.bind fun p ↦ ?_
  exact (singly_constInto v p 0).bind fun _ ↦ singly_pure _

theorem singly_lowerBind (s : Stmt) : Singly (lowerBind s) := by
  refine quiet_frameLocals.singly.bind fun locals ↦ (quiet_expect _).singly.bind fun l ↦ ?_
  refine (quiet_resolve l.type).singly.bind fun h ↦ ?_
  refine (quiet_localVars s.loc).singly.bind fun vars ↦ ?_
  split
  · exact singly_clear vars
  · exact singly_discard (singly_lowerExpr _ _)

theorem singly_lowerAssign (s : Stmt) : Singly (lowerAssign s) := by
  have htarget : Singly (assignTarget s.target) :=
    quiet_program.singly.bind fun _ ↦ singly_targetWithin _ s.target
  refine htarget.bind fun target ↦ quiet_program.singly.bind fun p ↦ ?_
  dsimp only
  split
  · refine (singly_lowerExpr s.expr none).bind fun v ↦ (singly_readValue v).bind fun vars ↦ ?_
    exact singly_writeValue target vars
  · exact singly_discard (singly_lowerExpr _ _)

section

variable {branch : List StmtId → M Unit} (hbranch : ∀ ids, Singly (branch ids))

include hbranch

theorem singly_lowerCond (s : Stmt) : Singly (lowerCond branch s) := by
  refine singly_operand singly_lowerExpr s.expr fun cond ↦ ?_
  split
  · refine (singly_newBlock .cond).bind fun block ↦ ?_
    refine (singly_nested (hbranch s.body)).bind fun body ↦ ?_
    exact Singly.bind (singly_updateBlock block fun _ ↦ rfl) fun _ ↦ singly_openBasic
  · refine (singly_newBlock .branch).bind fun block ↦ ?_
    refine (singly_nested (hbranch s.body)).bind fun body ↦ ?_
    refine (singly_nested (hbranch s.otherwise)).bind fun other ↦ ?_
    exact Singly.bind (singly_updateBlock block fun _ ↦ rfl) fun _ ↦ singly_openBasic

theorem singly_lowerLoop (s : Stmt) : Singly (lowerLoop branch s) := by
  refine (singly_newBlock .loop).bind fun block ↦ ?_
  refine Singly.bind (singly_modify fun _ hs ↦ ⟨hs.code, hs.funcs⟩) fun _ ↦ ?_
  refine (singly_nested ?_).bind fun body ↦ Singly.bind (singly_updateBlock block fun _ ↦ rfl)
    fun _ ↦ Singly.bind (singly_modify fun _ hs ↦ ⟨hs.code, hs.funcs⟩) fun _ ↦ singly_openBasic
  refine singly_operand singly_lowerExpr s.expr fun cond ↦ ?_
  refine (quiet_newVar .bool).singly.bind fun leave ↦ (quiet_primOf cond).singly.bind fun p ↦ ?_
  refine Singly.bind (singly_emit (Nat.le_refl 1)) fun _ ↦ ?_
  refine Singly.bind (singly_emit (Nat.zero_le 1)) fun _ ↦ ?_
  exact singly_openBasic.bind fun _ ↦ hbranch s.body

omit hbranch in
theorem singly_lowerJump (op : Opcode) (s : Stmt) : Singly (lowerJump op s) := by
  refine singly_get fun st ↦ ?_
  split
  · exact singly_internalHere _
  · exact Singly.bind (singly_emit (Nat.zero_le 1)) fun _ ↦ singly_openBasic

theorem singly_stmtStep (s : Stmt) : Singly (stmtStep branch s) := by
  unfold stmtStep
  cases s.kind with
  | expr => exact singly_discard (singly_lowerExpr s.expr none)
  | bind => exact singly_lowerBind s
  | assign => exact singly_lowerAssign s
  | cond => exact singly_lowerCond hbranch s
  | loop => exact singly_lowerLoop hbranch s
  | exit => exact singly_lowerJump .exit s
  | next => exact singly_lowerJump .next s
  | ret =>
    refine singly_read fun frame ↦ ?_
    dsimp only
    split
    · exact (singly_lowerReturn frame.self).bind fun _ ↦ singly_openBasic
    · split
      · exact (singly_lowerReturn []).bind fun _ ↦ singly_openBasic
      · refine (singly_rvalue singly_lowerExpr s.expr).bind fun vars ↦ ?_
        exact (singly_lowerReturn vars).bind fun _ ↦ singly_openBasic
  | unknown code hcode => exact singly_pure _

end

theorem singly_stmtsWithin (depth : ℕ) (ids : List StmtId) : Singly (stmtsWithin depth ids) := by
  induction depth generalizing ids with
  | zero => exact singly_throw _
  | succ depth ih =>
    refine (singly_forIn fun id _ _ ↦ quiet_program.singly.bind fun p ↦ ?_).bind fun _ ↦
      singly_pure _
    split
    · exact (singly_internalHere _).bind fun _ ↦ singly_pure _
    · exact (singly_stmtStep ih _).bind fun _ ↦ singly_pure _

/-- Lowering statements adds no instruction that defines several variables. -/
theorem singly_lowerStmts (ids : List StmtId) : Singly (lowerStmts ids) :=
  quiet_program.singly.bind fun _ ↦ singly_stmtsWithin _ ids

/-! ## Functions -/

theorem singly_declareLocals (kind : LocalKind) (locals : List Local)
    (rows : Array (List Var)) : Singly (declareLocals kind locals rows) := by
  refine singly_foldlM fun rows q _ ↦ ?_
  obtain ⟨l, i⟩ := q
  dsimp only
  split
  · refine (quiet_resolve l.type).singly.bind fun h ↦ (quiet_slotsOf h).singly.bind fun slots ↦ ?_
    exact (quiet_newVars slots).singly.bind fun _ ↦ singly_pure _
  · exact singly_pure rows

/-- A function is opened without code. -/
theorem singly_openFunction (owner result : Handle) : Singly (openFunction owner result) := by
  refine Singly.bind (singly_modify fun _ hs ↦ ⟨nofun, hs.funcs⟩) fun _ ↦ ?_
  refine quiet_hasReceiver.singly.bind fun hasSelf ↦ ?_
  refine (quiet_receiverSlots owner).singly.bind fun selfSlots ↦ ?_
  refine quiet_paramSlots.singly.bind fun params ↦ ?_
  refine (quiet_slotsOf result).singly.bind fun resultSlots ↦ ?_
  refine Singly.bind (singly_modify fun _ hs ↦ ⟨hs.code, hs.funcs⟩) fun _ ↦ ?_
  have hrows : Singly (frameVars selfSlots.length params) := by
    refine quiet_frameLocals.singly.bind fun locals ↦ singly_read fun frame ↦ ?_
    exact (singly_declareLocals .fixed locals _).bind fun rows ↦
      singly_declareLocals .mutable locals rows
  refine hrows.bind fun rows ↦ ?_
  exact singly_openBasic.bind fun _ ↦ singly_read fun frame ↦ singly_pure _

/-- The code of a function goes into the unit with it. -/
theorem singly_closeFunction (f : Ir.Function) : Singly (closeFunction f) := by
  refine singly_modify fun s hs ↦ ⟨hs.code, fun g hg ↦ ?_⟩
  obtain hold | hnew := List.mem_append.1 hg
  · exact hs.funcs g hold
  · rw [List.mem_singleton.1 hnew]
    exact hs.code

theorem singly_lowerFunction (owner result : Handle) {body : Ir.Function → M Unit}
    (hbody : ∀ f, Singly (body f)) (close : Ir.Function → Ir.Function) :
    Singly (lowerFunction owner result body close) := by
  refine (singly_openFunction owner result).bind fun opened ↦ ?_
  exact (singly_withReader (hbody opened.2)).bind fun _ ↦ singly_closeFunction _

theorem singly_constructorSelf (owner : Handle) : Singly (constructorSelf owner) := by
  refine (quiet_typeOf owner).singly.bind fun t ↦ ?_
  split
  · exact (singly_allocate t.size).bind fun pointer ↦ singly_pure _
  · refine (quiet_ofLayout t.slots).singly.bind fun slots ↦ ?_
    refine (quiet_newVars slots).singly.bind fun vars ↦ ?_
    exact (singly_clear vars).bind fun _ ↦ singly_pure vars

theorem singly_finishBody (data : FunctionData) (result : Prim) :
    Singly (finishBody data result) := by
  refine quiet_currentTerminated.singly.bind fun terminated ↦ ?_
  split
  · exact singly_pure _
  split
  · exact singly_read fun frame ↦ singly_lowerReturn frame.self
  split
  · exact singly_emit (Nat.zero_le 1)
  · exact singly_pure _

theorem singly_lowerBody (owner : Handle) (data : FunctionData) (result : Prim) :
    Singly (lowerBody owner data result) := by
  have hstatements : Singly (do lowerStmts data.body; finishBody data result) :=
    (singly_lowerStmts data.body).bind fun _ ↦ singly_finishBody data result
  unfold lowerBody
  dsimp only
  split
  · exact (singly_constructorSelf owner).bind fun self ↦ singly_withReader hstatements
  · exact hstatements

theorem singly_initGlobal (id : DeclId) (d : Decl) : Singly (initGlobal id d) := by
  unfold initGlobal
  split
  · refine (quiet_expect _).singly.bind fun g ↦ ?_
    split
    · refine (quiet_resolve g.type).singly.bind fun h ↦ ?_
      refine (quiet_globalIndex id).singly.bind fun i ↦ ?_
      exact singly_discard (singly_lowerExpr _ _)
    · exact singly_pure _
  · exact singly_pure _

theorem singly_lowerEntry (needsAlloc : Bool) : Singly (lowerEntry needsAlloc) := by
  have hmain : Singly (do
      let p ← program
      for q in p.numberedDecls do
        initGlobal q.1 q.2
      lowerStmts p.main) := by
    refine quiet_program.singly.bind fun p ↦ ?_
    refine (singly_forIn fun q _ _ ↦ ?_).bind fun _ ↦ singly_lowerStmts p.main
    exact (singly_initGlobal q.1 q.2).bind fun _ ↦ singly_pure _
  have hreset : Singly resetHeap :=
    (quiet_newVar .pointer).singly.bind fun base ↦
      Singly.bind (singly_emit (Nat.le_refl 1)) fun _ ↦ singly_emit (Nat.zero_le 1)
  unfold lowerEntry
  dsimp only
  split
  · exact hreset.bind fun _ ↦ hmain
  · exact hmain

/-! ## Plans -/

/-- Every instruction of the functions that the unit has defines at most one variable. -/
def SingleUnit (s : Lowering) : Prop :=
  ∀ f ∈ s.unit.funcs, f.HasSingleResults

variable {s t : Lowering} {frame : Frame}

theorem SingleUnit.of_eq (h : s.SingleUnit) (hfuncs : t.unit.funcs = s.unit.funcs) :
    t.SingleUnit := by
  unfold SingleUnit
  rw [hfuncs]
  exact h

/-- Opening a function drops what blocks there were. -/
theorem ensures_lowerFunction_singleUnit (owner result : Handle) {body : Ir.Function → M Unit}
    (hbody : ∀ f, Singly (body f)) (close : Ir.Function → Ir.Function) (hs : s.SingleUnit) :
    Ensures (lowerFunction owner result body close frame) s fun _ t ↦ t.SingleUnit := by
  have hrun := singly_lowerFunction owner result hbody close frame { s with blocks := #[] }
    ⟨nofun, hs⟩
  exact hrun.imp fun _ _ ht ↦ ht.funcs

theorem ensures_lowerDeclared_singleUnit (task : Task) (d : Decl) (data : FunctionData)
    (hs : s.SingleUnit) :
    Ensures (lowerDeclared task d data frame) s fun _ t ↦ t.SingleUnit := by
  refine ensures_bind.2 ((quiet_resolve data.result _ s).imp fun result s₁ hs₁ ↦ ?_)
  exact ensures_lowerFunction_singleUnit task.owner _
    (fun f ↦ singly_lowerBody task.owner data f.result) _ (hs.of_eq hs₁.funcs)

theorem ensures_lowerTask_singleUnit (globals : List (DeclId × ℕ)) (needsAlloc : Bool)
    (task : Task) (hs : s.SingleUnit) :
    Ensures (lowerTask globals needsAlloc task) s fun _ t ↦ t.SingleUnit := by
  unfold lowerTask
  rw [Ensures, Stage.meets_bind, Stage.meets_get]
  split
  · exact ensures_lowerFunction_singleUnit 0 Handle.void (fun _ ↦ singly_lowerEntry needsAlloc) _ hs
  split
  · rename_i d _
    split
    · rename_i data _
      dsimp only
      split
      · exact (quiet_lowerForeign task d data _ s).imp fun _ _ ht ↦ hs.of_eq ht.funcs
      · exact ensures_lowerDeclared_singleUnit task d data hs
    · exact trivial
  · exact trivial

theorem ensures_lowerTasks_singleUnit (globals : List (DeclId × ℕ)) (needsAlloc : Bool)
    (parent : ℕ) (tasks : List Task) (hs : s.SingleUnit) :
    Ensures (lowerTasks globals needsAlloc parent tasks) s fun _ t ↦ t.SingleUnit := by
  unfold lowerTasks
  rw [Ensures, Stage.meets_bind]
  refine (Stage.meets_forIn (fun _ _ t ↦ SingleUnit t) hs fun _ task _ _ st _ hst ↦ ?_).imp
    fun _ _ h ↦ h
  split
  · rw [Stage.meets_bind, Stage.meets_modify, Stage.meets_bind]
    have hnext : SingleUnit
        { st with tracer := st.tracer.point .task "lower" task.name parent } := hst.of_eq rfl
    refine (ensures_lowerTask_singleUnit globals needsAlloc task hnext).imp ?_
    exact fun _ t ht ↦ ⟨_, rfl, ht⟩
  · exact ⟨_, rfl, hst⟩

theorem hasSingleResults_allocator : allocator.HasSingleResults := by
  intro b hb i hi
  obtain rfl := List.mem_singleton.1 (Array.mem_toList_iff.2 hb)
  have hall : ∀ i ∈ (allocator.blockAt 1).instrs, i.dst.length ≤ 1 := by decide
  exact hall i hi

/-- **Every instruction of a lowered unit defines at most one variable.** -/
theorem ensures_lowerPlan_hasSingleResults (plan : Plan) (entryExport : Text) (parent : ℕ)
    (s : Lowering) :
    Ensures (lowerPlan plan entryExport parent) s fun unit _ ↦
      ∀ f ∈ unit.funcs, f.HasSingleResults := by
  unfold lowerPlan
  dsimp only
  rw [Ensures, Stage.meets_bind, Stage.meets_modify, Stage.meets_bind]
  refine (quiet_declareGlobals _ _).imp fun globals s₁ hs₁ ↦ ?_
  have hstart : SingleUnit s₁ := by
    intro f hf
    rw [hs₁.funcs] at hf
    exact absurd hf List.not_mem_nil
  rw [Stage.meets_bind]
  unfold fillTable
  rw [Stage.meets_bind]
  refine (Stage.meets_forIn (fun _ _ t ↦ SingleUnit t) hstart fun _ task _ _ st _ hst ↦ ?_).imp
    fun _ s₂ hs₂ ↦ ?_
  · split <;> exact ⟨_, rfl, hst⟩
  rw [Stage.meets_pure, Stage.meets_bind]
  refine (ensures_lowerTasks_singleUnit globals plan.needsAlloc parent plan.tasks hs₂).imp
    fun _ s₃ hs₃ ↦ ?_
  split
  · rw [Stage.meets_bind, Stage.meets_modify]
    intro f hf
    obtain hold | hnew := List.mem_append.1 hf
    · exact hs₃ f hold
    · rw [List.mem_singleton.1 hnew]
      exact hasSingleResults_allocator
  · exact hs₃

end Lowering

end WasmBackend
