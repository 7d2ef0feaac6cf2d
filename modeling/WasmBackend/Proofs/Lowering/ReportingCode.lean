import WasmBackend.Lowering.Unit
import WasmBackend.Proofs.Lowering.Reporting

/-!
# Lowering only reports

Each form of expression only reports when its parts do; `lowerExpr` follows by induction on the
depth, statements by induction on their nesting, and a plan task by task.
-/

namespace WasmBackend.Lowering

open Ir (Instr Var)

variable {α β : Type} {sub : Sub}

/-! ## Calls -/

theorem reports_exprType (id : ExprId) : Reports (exprType id) :=
  reports_program.bind fun _ ↦ (reports_expect _).bind fun e ↦ reports_resolve e.type

theorem reports_signatureOf (params : List Handle) (result : Handle) :
    Reports (signatureOf params result) := by
  refine (reports_mapM fun h _ ↦ reports_slotsOf h).bind fun slots ↦ ?_
  exact (reports_slotsOf result).bind fun results ↦ reports_pure _

theorem reports_scratchSlot (position : ℕ) (p : Prim) : Reports (scratchSlot position p) :=
  reports_get (fun _ _ ↦ rfl) fun _ ↦ (reports_modify fun _ _ ↦ rfl).bind fun _ ↦ reports_pure _

theorem reports_emitCall (call : Instr) (result : Handle) : Reports (emitCall call result) := by
  refine (reports_slotsOf result).bind fun slots ↦ ?_
  cases slots with
  | nil => exact (reports_emit call).bind fun _ ↦ reports_pure _
  | cons p rest =>
    refine (reports_newVar p).bind fun v ↦ (reports_emit _).bind fun _ ↦ ?_
    refine (reports_mapM fun q _ ↦ ?_).bind fun others ↦ reports_pure _
    refine (reports_scratchSlot (q.2 + 1) q.1).bind fun slot ↦ ?_
    refine (reports_address .scratch slot).bind fun base ↦ (reports_newVar q.1).bind fun w ↦ ?_
    exact (reports_emit _).bind fun _ ↦ reports_pure w

theorem reports_callFunction (callee : Text) (args : List Var) (result : Handle) :
    Reports (callFunction callee args result) :=
  reports_emitCall _ result

theorem reports_allocate (size : ℕ) : Reports (allocate size) := by
  refine (reports_constant .pointer _).bind fun n ↦ (reports_onStore _).bind fun result ↦ ?_
  exact (reports_callFunction allocFunction [n] result).bind fun vs ↦ reports_first vs

theorem reports_calleeName (e : Expr) : Reports (calleeName e) :=
  reports_read fun _ ↦ (reports_onStore _).bind fun _ ↦ reports_onStore _

theorem reports_absolute (x : Var) (storage : Prim) (dst : List Var) :
    Reports (absolute x storage dst) := by
  refine (reports_constant storage _).bind fun shift ↦ ?_
  refine (reports_operation .shr storage.asSigned storage [x, shift]).bind fun sign ↦ ?_
  exact (reports_operation .xor storage storage [x, sign]).bind fun flipped ↦ reports_emit _

theorem reports_nativeResult (result : Handle) : Reports (nativeResult result) := by
  refine (reports_slotsOf result).bind fun slots ↦ ?_
  cases slots with
  | nil => exact reports_pure []
  | cons p rest => exact (reports_newVar p).bind fun v ↦ reports_pure [v]

theorem reports_nativeStorage (args : List Var) : Reports (nativeStorage args) := by
  cases args with
  | nil => exact reports_pure Prim.i32
  | cons x rest => exact reports_primOf x

theorem reports_lowerNative (name : Text) (args : List Var) (result : Handle) :
    Reports (lowerNative name args result) := by
  refine (reports_nativeResult result).bind fun dst ↦ ?_
  refine (reports_nativeStorage args).bind fun storage ↦ ?_
  dsimp only
  split
  · refine (reports_first args).bind fun x ↦ ?_
    exact (reports_absolute x storage dst).bind fun _ ↦ reports_pure dst
  · exact (reports_emit _).bind fun _ ↦ reports_pure dst

/-! ## Forms of expressions -/

/-- Lowering a subexpression only reports. -/
def SubReports (sub : Sub) : Prop :=
  ∀ (id : ExprId) (dst : Option Value), Reports (sub id dst)

section

variable (hsub : SubReports sub)

include hsub

theorem reports_rvalue (id : ExprId) : Reports (rvalue sub id) :=
  (hsub id none).bind fun v ↦ reports_readValue v

/-- The first variable of a subexpression. -/
theorem reports_operand (id : ExprId) {f : Var → M β} (hf : ∀ v, Reports (f v)) :
    Reports (do f (← first (← rvalue sub id))) :=
  (reports_rvalue hsub id).bind fun vs ↦ (reports_first vs).bind hf

theorem reports_arguments (ids : List ExprId) : Reports (arguments sub ids) :=
  (reports_mapM fun id _ ↦ reports_rvalue hsub id).bind fun _ ↦ reports_pure _

theorem reports_lowerCall (e : Expr) (result : Handle) : Reports (lowerCall sub e result) := by
  refine reports_program.bind fun p ↦ ?_
  split
  · split
    · exact reports_internalHere _
    · split
      · exact (reports_arguments hsub e.args).bind fun args ↦ reports_lowerNative _ args result
      · refine (reports_calleeName e).bind fun name ↦ ?_
        exact (reports_arguments hsub e.args).bind fun args ↦ reports_callFunction name args result
  · exact reports_internalHere _

theorem reports_lowerCallValue (e : Expr) (result : Handle) :
    Reports (lowerCallValue sub e result) := by
  refine reports_operand hsub e.x fun callee ↦ (reports_exprType e.x).bind fun h ↦ ?_
  refine (reports_typeOf h).bind fun t ↦ ?_
  dsimp only
  split
  · exact reports_internalHere_bind _
  · refine (reports_signatureOf t.params t.result).bind fun sig ↦ ?_
    exact (reports_arguments hsub e.args).bind fun args ↦ reports_emitCall _ result

theorem reports_lowerMethodCall (e : Expr) (result : Handle) :
    Reports (lowerMethodCall sub e result) := by
  refine (reports_exprType e.x).bind fun owner ↦ (reports_typeOf owner).bind fun t ↦ ?_
  cases t.method? e.name with
  | none => exact reports_internal _
  | some decl =>
    refine (reports_rvalue hsub e.x).bind fun receiver ↦ ?_
    refine (reports_arguments hsub e.args).bind fun args ↦ ?_
    exact (reports_onStore _).bind fun name ↦ reports_callFunction name _ result

theorem reports_lowerOperator (e : Expr) (result : Handle) :
    Reports (lowerOperator sub e result) := by
  refine (reports_exprType e.x).bind fun owner ↦ (reports_typeOf owner).bind fun t ↦ ?_
  cases t.operator? e.op with
  | none => exact reports_internal _
  | some decl =>
    refine (reports_rvalue hsub e.x).bind fun left ↦ ?_
    have hcall (right : List Var) : Reports (do
        let name ← onStore (TypeStore.memberName owner decl)
        callFunction name (left ++ right) result) :=
      (reports_onStore _).bind fun name ↦ reports_callFunction name _ result
    dsimp only
    split
    · exact hcall []
    · exact (reports_rvalue hsub e.y).bind hcall

theorem reports_lowerLogical (e : Expr) : Reports (lowerLogical sub e) := by
  refine (reports_newVar .bool).bind fun r ↦ (reports_newBlock .breakable).bind fun block ↦ ?_
  refine (reports_nested ?_).bind fun body ↦ (reports_updateBlock block _).bind fun _ ↦
    reports_openBasic.bind fun _ ↦ reports_pure r
  refine reports_operand hsub e.x fun x ↦ (reports_emit _).bind fun _ ↦ ?_
  have hright (test : Var) : Reports (do
      emit { op := .exitIf, args := [test], target := block }
      openBasic
      let y ← first (← rvalue sub e.y)
      emit { op := .copy, dst := [r], args := [y] }) := by
    refine (reports_emit _).bind fun _ ↦ reports_openBasic.bind fun _ ↦ ?_
    exact reports_operand hsub e.y fun y ↦ reports_emit _
  dsimp only
  split
  · refine (reports_primOf x).bind fun p ↦ ?_
    exact (reports_operation .eqz p .bool [x]).bind hright
  · exact hright x

theorem reports_lowerBinary (e : Expr) (t : ConcreteType) : Reports (lowerBinary sub e t) := by
  unfold lowerBinary
  split
  · exact reports_lowerLogical hsub e
  split
  · exact reports_internalHere _
  rename_i op _
  refine reports_operand hsub e.x fun x ↦ reports_operand hsub e.y fun y ↦ ?_
  refine (reports_primOf x).bind fun p ↦ ?_
  have hresult : Reports (do
      let result ← expect (← ofLayout t.slots).head?
      operation op p result [x, y]) := by
    refine (reports_ofLayout t.slots).bind fun slots ↦ (reports_expect _).bind fun result ↦ ?_
    exact reports_operation op p result [x, y]
  dsimp only
  split
  · exact (reports_report _).bind fun _ ↦ hresult
  · exact hresult

theorem reports_lowerUnary (e : Expr) (result : Prim) : Reports (lowerUnary sub e result) := by
  refine reports_operand hsub e.x fun x ↦ (reports_primOf x).bind fun p ↦ ?_
  split
  · split
    · exact reports_operation .neg p result [x]
    · exact (reports_constant p 0).bind fun base ↦ reports_operation .sub p result [base, x]
  · exact reports_operation .eqz p result [x]
  · exact (reports_constant p (-1)).bind fun ones ↦ reports_operation .xor p result [x, ones]
  · exact reports_internalHere _

theorem reports_lowerConvert (e : Expr) (t : ConcreteType) : Reports (lowerConvert sub e t) := by
  refine (reports_rvalue hsub e.x).bind fun src ↦ (reports_ofLayout t.slots).bind fun target ↦ ?_
  dsimp only
  split
  · exact reports_internalHere_bind _
  refine reports_mapM fun q _ ↦ (reports_primOf q.1).bind fun source ↦ ?_
  refine (reports_newVar q.2).bind fun w ↦ ?_
  split
  · exact (reports_emit _).bind fun _ ↦ reports_pure w
  · exact (reports_emit _).bind fun _ ↦ reports_pure w

omit hsub in
/-- A literal that is not in composed form is warned about once. -/
theorem reports_checkLiteral (id : ExprId) (e : Expr) : Reports (checkLiteral id e) := by
  refine reports_get (fun _ _ ↦ rfl) fun s ↦ ?_
  split
  · exact reports_pure _
  refine (reports_modify fun _ _ ↦ rfl).bind fun _ ↦ ?_
  split
  · exact reports_report _
  · exact reports_pure _

omit hsub in
theorem reports_dataSegment (bytes : List UInt8) : Reports (dataSegment bytes) :=
  reports_get (fun _ _ ↦ rfl) fun _ ↦ (reports_modify fun _ _ ↦ rfl).bind fun _ ↦ reports_pure _

omit hsub in
theorem reports_lowerString (id : ExprId) (e : Expr) (t : ConcreteType) :
    Reports (lowerString id e t) := by
  refine (reports_checkLiteral id e).bind fun _ ↦ ?_
  refine (reports_dataSegment e.str.bytes).bind fun segment ↦ ?_
  refine (reports_ofLayout t.slots).bind fun slots ↦ ?_
  split
  · exact (reports_address .data segment).bind fun _ ↦ reports_pure _
  · refine (reports_address .data segment).bind fun _ ↦ ?_
    exact (reports_constant _ _).bind fun _ ↦ reports_pure _
  · exact (reports_report _).bind fun _ ↦ reports_newVars _

theorem reports_lowerConstruct (e : Expr) (h : Handle) (dst : Option Value) :
    Reports (lowerConstruct sub e h dst) := by
  refine (reports_typeOf h).bind fun t ↦ ?_
  dsimp only
  split
  · refine (reports_onStore _).bind fun name ↦ (reports_arguments hsub e.args).bind fun args ↦ ?_
    exact (reports_callFunction name args h).bind fun vars ↦ reports_deliver vars h dst
  split
  · exact reports_internalHere_bind _
  split
  · have hfill (target : Value) : Reports (do
        for p in e.args.zip t.members do
          let place ← selectMember target p.2.name
          discard (sub p.1 (some place))
        return target) := by
      refine (reports_forIn fun p _ _ ↦ ?_).bind fun _ ↦ reports_pure target
      refine (reports_selectMember target p.2.name).bind fun place ↦ ?_
      exact (reports_discard (hsub p.1 (some place))).bind fun _ ↦ reports_pure _
    cases dst with
    | some d => exact hfill d
    | none =>
      refine (reports_ofLayout t.slots).bind fun slots ↦ ?_
      exact (reports_newVars slots).bind fun vars ↦ hfill (.direct h vars)
  · refine (reports_allocate t.size).bind fun pointer ↦ ?_
    refine (reports_forIn fun p _ _ ↦ ?_).bind fun _ ↦ reports_deliver [pointer] h dst
    refine (reports_instanceMember pointer p.2).bind fun place ↦ ?_
    exact (reports_discard (hsub p.1 (some place))).bind fun _ ↦ reports_pure _
  · exact reports_internalHere _

omit hsub in
theorem reports_globalIndex (id : DeclId) : Reports (globalIndex id) :=
  reports_read fun _ ↦ reports_pure _

omit hsub in
theorem reports_localVars (id : LocalId) : Reports (localVars id) :=
  reports_read fun _ ↦ reports_expect _

theorem reports_exprStep (id : ExprId) (e : Expr) (dst : Option Value) :
    Reports (exprStep sub id e dst) := by
  refine (reports_resolve e.type).bind fun h ↦ (reports_typeOf h).bind fun t ↦ ?_
  have hdeliver {x : M Var} (hx : Reports x) : Reports (do deliver [← x] h dst) :=
    hx.bind fun v ↦ reports_deliver [v] h dst
  have hdeliverAll {x : M (List Var)} (hx : Reports x) : Reports (do deliver (← x) h dst) :=
    hx.bind fun vars ↦ reports_deliver vars h dst
  have hprim {f : Prim → M Value} (hf : ∀ p, Reports (f p)) :
      Reports (do f (← expect (← ofLayout t.slots).head?)) :=
    (reports_ofLayout t.slots).bind fun slots ↦ (reports_expect _).bind hf
  cases e.kind with
  | int => exact hprim fun p ↦ hdeliver (reports_constant p e.int)
  | float =>
    refine hprim fun p ↦ (reports_newVar p).bind fun v ↦ ?_
    exact (reports_emit _).bind fun _ ↦ reports_deliver [v] h dst
  | bool => exact hdeliver (reports_constant .bool _)
  | null => exact hdeliver (reports_constant .pointer 0)
  | string => exact hdeliverAll (reports_lowerString id e t)
  | loc => exact (reports_localVars e.loc).bind fun vars ↦ reports_deliverValue _ dst
  | self => exact reports_read fun frame ↦ reports_deliverValue _ dst
  | global => exact (reports_globalIndex e.decl).bind fun index ↦ reports_deliverValue _ dst
  | funcRef =>
    refine (reports_newVar .pointer).bind fun v ↦ (reports_calleeName e).bind fun name ↦ ?_
    refine (reports_modify fun _ _ ↦ rfl).bind fun _ ↦ (reports_emit _).bind fun _ ↦ ?_
    exact reports_deliver [v] h dst
  | call => exact hdeliverAll (reports_lowerCall hsub e h)
  | callValue => exact hdeliverAll (reports_lowerCallValue hsub e h)
  | methodCall => exact hdeliverAll (reports_lowerMethodCall hsub e h)
  | operator => exact hdeliverAll (reports_lowerOperator hsub e h)
  | member =>
    refine (hsub e.x none).bind fun whole ↦ (reports_selectMember whole e.name).bind fun part ↦ ?_
    exact reports_deliverValue part dst
  | binary => exact hdeliver (reports_lowerBinary hsub e t)
  | unary => exact hprim fun result ↦ hdeliver (reports_lowerUnary hsub e result)
  | convert => exact hdeliverAll (reports_lowerConvert hsub e t)
  | construct => exact reports_lowerConstruct hsub e h dst
  | alloc =>
    refine (reports_typeOf t.elem).bind fun t' ↦ (reports_ofLayout t'.valueSize).bind fun size ↦ ?_
    refine (reports_allocate size).bind fun pointer ↦ ?_
    split
    · exact (reports_discard (hsub _ _)).bind fun _ ↦ reports_deliver [pointer] h dst
    · exact reports_deliver [pointer] h dst
  | deref => exact reports_operand hsub e.x fun base ↦ reports_deliverValue _ dst
  | unknown code hcode => exact reports_internalHere _

end

theorem reports_lowerWithin (depth : ℕ) : SubReports (lowerWithin depth) := by
  induction depth with
  | zero => exact fun _ _ ↦ reports_throw _
  | succ depth ih =>
    refine fun id dst ↦ reports_program.bind fun p ↦ ?_
    split
    · exact reports_internalHere _
    · exact reports_exprStep ih id _ dst

/-- Lowering an expression only reports. -/
theorem reports_lowerExpr : SubReports lowerExpr :=
  fun id dst ↦ reports_program.bind fun _ ↦ reports_lowerWithin _ id dst

/-! ## Statements -/

theorem reports_lowerReturn (vars : List Var) : Reports (lowerReturn vars) := by
  cases vars with
  | nil => exact reports_emit _
  | cons v rest =>
    refine (reports_forIn fun q _ _ ↦ ?_).bind fun _ ↦ reports_emit _
    refine (reports_primOf q.1).bind fun p ↦ (reports_scratchSlot (q.2 + 1) p).bind fun slot ↦ ?_
    refine (reports_address .scratch slot).bind fun base ↦ ?_
    exact (reports_emit _).bind fun _ ↦ reports_pure _

theorem reports_targetWithin (depth : ℕ) (id : ExprId) : Reports (targetWithin depth id) := by
  induction depth generalizing id with
  | zero => exact reports_throw _
  | succ depth ih =>
    refine reports_program.bind fun p ↦ (reports_expect _).bind fun e ↦ ?_
    refine (reports_resolve e.type).bind fun h ↦ ?_
    split
    · exact (reports_localVars e.loc).bind fun _ ↦ reports_pure _
    · exact reports_read fun _ ↦ reports_pure _
    · exact (reports_globalIndex e.decl).bind fun _ ↦ reports_pure _
    · exact reports_operand reports_lowerExpr e.x fun _ ↦ reports_pure _
    · refine (reports_exprType e.x).bind fun owner ↦ (reports_typeOf owner).bind fun t ↦ ?_
      split
      · exact (reports_lowerExpr e.x none).bind fun v ↦ reports_selectMember v e.name
      · exact (ih e.x).bind fun v ↦ reports_selectMember v e.name
    · exact reports_internalHere _

theorem reports_assignTarget (id : ExprId) : Reports (assignTarget id) :=
  reports_program.bind fun _ ↦ reports_targetWithin _ id

theorem reports_frameLocals : Reports frameLocals := by
  refine reports_read fun frame ↦ ?_
  split
  · exact reports_pure _
  · exact reports_program.bind fun _ ↦ reports_pure _

theorem reports_clear (vars : List Var) : Reports (clear vars) := by
  refine (reports_forIn fun v _ _ ↦ ?_).bind fun _ ↦ reports_pure _
  refine (reports_primOf v).bind fun p ↦ ?_
  exact (reports_constInto v p 0).bind fun _ ↦ reports_pure _

theorem reports_lowerBind (s : Stmt) : Reports (lowerBind s) := by
  refine Reports.bind reports_frameLocals fun locals ↦ (reports_expect _).bind fun l ↦ ?_
  refine (reports_resolve l.type).bind fun h ↦ (reports_localVars s.loc).bind fun vars ↦ ?_
  split
  · exact reports_clear vars
  · exact reports_discard (reports_lowerExpr _ _)

theorem reports_lowerAssign (s : Stmt) : Reports (lowerAssign s) := by
  refine (reports_assignTarget s.target).bind fun target ↦ reports_program.bind fun p ↦ ?_
  dsimp only
  split
  · refine (reports_lowerExpr s.expr none).bind fun v ↦ (reports_readValue v).bind fun vars ↦ ?_
    exact reports_writeValue target vars
  · exact reports_discard (reports_lowerExpr _ _)

section

variable {branch : List StmtId → M Unit} (hbranch : ∀ ids, Reports (branch ids))

include hbranch

theorem reports_lowerCond (s : Stmt) : Reports (lowerCond branch s) := by
  refine reports_operand reports_lowerExpr s.expr fun cond ↦ ?_
  split
  · refine (reports_newBlock .cond).bind fun block ↦ ?_
    refine (reports_nested (hbranch s.body)).bind fun body ↦ ?_
    exact (reports_updateBlock block _).bind fun _ ↦ reports_openBasic
  · refine (reports_newBlock .branch).bind fun block ↦ ?_
    refine (reports_nested (hbranch s.body)).bind fun body ↦ ?_
    refine (reports_nested (hbranch s.otherwise)).bind fun other ↦ ?_
    exact (reports_updateBlock block _).bind fun _ ↦ reports_openBasic

theorem reports_lowerLoop (s : Stmt) : Reports (lowerLoop branch s) := by
  refine (reports_newBlock .loop).bind fun block ↦ (reports_modify fun _ _ ↦ rfl).bind fun _ ↦ ?_
  refine (reports_nested ?_).bind fun body ↦ (reports_updateBlock block _).bind fun _ ↦
    (reports_modify fun _ _ ↦ rfl).bind fun _ ↦ reports_openBasic
  refine reports_operand reports_lowerExpr s.expr fun cond ↦ ?_
  refine (reports_newVar .bool).bind fun leave ↦ (reports_primOf cond).bind fun p ↦ ?_
  refine (reports_emit _).bind fun _ ↦ (reports_emit _).bind fun _ ↦ ?_
  exact reports_openBasic.bind fun _ ↦ hbranch s.body

omit hbranch in
theorem reports_lowerJump (op : Ir.Opcode) (s : Stmt) : Reports (lowerJump op s) := by
  refine reports_get (fun _ _ ↦ rfl) fun st ↦ ?_
  split
  · exact reports_internalHere _
  · exact (reports_emit _).bind fun _ ↦ reports_openBasic

theorem reports_stmtStep (s : Stmt) : Reports (stmtStep branch s) := by
  unfold stmtStep
  cases s.kind with
  | expr => exact reports_discard (reports_lowerExpr s.expr none)
  | bind => exact reports_lowerBind s
  | assign => exact reports_lowerAssign s
  | cond => exact reports_lowerCond hbranch s
  | loop => exact reports_lowerLoop hbranch s
  | exit => exact reports_lowerJump .exit s
  | next => exact reports_lowerJump .next s
  | ret =>
    refine reports_read fun frame ↦ ?_
    dsimp only
    split
    · exact (reports_lowerReturn frame.self).bind fun _ ↦ reports_openBasic
    · split
      · exact (reports_lowerReturn []).bind fun _ ↦ reports_openBasic
      · refine (reports_rvalue reports_lowerExpr s.expr).bind fun vars ↦ ?_
        exact (reports_lowerReturn vars).bind fun _ ↦ reports_openBasic
  | unknown code hcode => exact reports_pure _

end

theorem reports_stmtsWithin (depth : ℕ) (ids : List StmtId) : Reports (stmtsWithin depth ids) := by
  induction depth generalizing ids with
  | zero => exact reports_throw _
  | succ depth ih =>
    refine (reports_forIn fun id _ _ ↦ reports_program.bind fun p ↦ ?_).bind fun _ ↦ reports_pure _
    split
    · exact (reports_internalHere _).bind fun _ ↦ reports_pure _
    · exact (reports_stmtStep ih _).bind fun _ ↦ reports_pure _

/-- Lowering statements only reports. -/
theorem reports_lowerStmts (ids : List StmtId) : Reports (lowerStmts ids) :=
  reports_program.bind fun _ ↦ reports_stmtsWithin _ ids

/-! ## Functions -/

theorem reports_declareLocals (kind : LocalKind) (locals : List Local)
    (vars : Array (List Var)) : Reports (declareLocals kind locals vars) := by
  refine reports_foldlM fun vars q _ ↦ ?_
  obtain ⟨l, i⟩ := q
  dsimp only
  split
  · refine (reports_resolve l.type).bind fun h ↦ (reports_slotsOf h).bind fun slots ↦ ?_
    exact (reports_newVars slots).bind fun _ ↦ reports_pure _
  · exact reports_pure vars

theorem reports_hasReceiver : Reports hasReceiver := by
  refine reports_read fun frame ↦ ?_
  split
  all_goals exact reports_pure _

theorem reports_receiverSlots (owner : Handle) : Reports (receiverSlots owner) := by
  refine Reports.bind reports_hasReceiver fun hasSelf ↦ ?_
  split
  · exact reports_slotsOf owner
  · exact reports_pure []

theorem reports_paramSlots : Reports paramSlots := by
  refine Reports.bind reports_frameLocals fun locals ↦ reports_read fun frame ↦ ?_
  refine reports_mapM fun p _ ↦ (reports_expect _).bind fun l ↦ ?_
  exact (reports_resolve l.type).bind fun h ↦ reports_slotsOf h

theorem reports_frameVars (receiver : ℕ) (params : List (List Prim)) :
    Reports (frameVars receiver params) := by
  refine Reports.bind reports_frameLocals fun locals ↦ reports_read fun frame ↦ ?_
  exact (reports_declareLocals .fixed locals _).bind fun vars ↦
    reports_declareLocals .mutable locals vars

theorem reports_openFunction (owner result : Handle) : Reports (openFunction owner result) := by
  refine (reports_modify fun _ _ ↦ rfl).bind fun _ ↦ ?_
  refine Reports.bind reports_hasReceiver fun hasSelf ↦ ?_
  refine (reports_receiverSlots owner).bind fun selfSlots ↦ ?_
  refine Reports.bind reports_paramSlots fun params ↦ ?_
  refine (reports_slotsOf result).bind fun resultSlots ↦ ?_
  refine (reports_modify fun _ _ ↦ rfl).bind fun _ ↦ ?_
  refine (reports_frameVars selfSlots.length params).bind fun vars ↦ ?_
  exact reports_openBasic.bind fun _ ↦ reports_read fun frame ↦ reports_pure _

theorem reports_closeFunction (f : Ir.Function) : Reports (closeFunction f) :=
  reports_modify fun _ _ ↦ rfl

theorem reports_lowerFunction (owner result : Handle) {body : Ir.Function → M Unit}
    (hbody : ∀ f, Reports (body f)) (close : Ir.Function → Ir.Function) :
    Reports (lowerFunction owner result body close) := by
  refine (reports_openFunction owner result).bind fun opened ↦ ?_
  exact (reports_withReader (hbody opened.2)).bind fun _ ↦ reports_closeFunction _

theorem reports_constructorSelf (owner : Handle) : Reports (constructorSelf owner) := by
  refine (reports_typeOf owner).bind fun t ↦ ?_
  split
  · exact (reports_allocate t.size).bind fun pointer ↦ reports_pure _
  · refine (reports_ofLayout t.slots).bind fun slots ↦ (reports_newVars slots).bind fun vars ↦ ?_
    exact (reports_clear vars).bind fun _ ↦ reports_pure vars

theorem reports_finishBody (data : FunctionData) (result : Prim) :
    Reports (finishBody data result) := by
  have hterminated : Reports currentTerminated :=
    reports_get (fun _ _ ↦ rfl) fun s ↦ reports_pure _
  refine hterminated.bind fun terminated ↦ ?_
  split
  · exact reports_pure _
  split
  · exact reports_read fun frame ↦ reports_lowerReturn frame.self
  split
  · exact reports_emit _
  · exact reports_pure _

theorem reports_lowerBody (owner : Handle) (data : FunctionData) (result : Prim) :
    Reports (lowerBody owner data result) := by
  have hstatements : Reports (do lowerStmts data.body; finishBody data result) :=
    (reports_lowerStmts data.body).bind fun _ ↦ reports_finishBody data result
  unfold lowerBody
  dsimp only
  split
  · exact (reports_constructorSelf owner).bind fun self ↦ reports_withReader hstatements
  · exact hstatements

theorem reports_initGlobal (id : DeclId) (d : Decl) : Reports (initGlobal id d) := by
  unfold initGlobal
  split
  · refine (reports_expect _).bind fun g ↦ ?_
    split
    · refine (reports_resolve g.type).bind fun h ↦ (reports_globalIndex id).bind fun index ↦ ?_
      exact reports_discard (reports_lowerExpr _ _)
    · exact reports_pure _
  · exact reports_pure _

theorem reports_lowerEntry (needsAlloc : Bool) : Reports (lowerEntry needsAlloc) := by
  have hmain : Reports (do
      let p ← program
      for q in p.numberedDecls do
        initGlobal q.1 q.2
      lowerStmts p.main) := by
    refine reports_program.bind fun p ↦ ?_
    refine (reports_forIn fun q _ _ ↦ ?_).bind fun _ ↦ reports_lowerStmts p.main
    exact (reports_initGlobal q.1 q.2).bind fun _ ↦ reports_pure _
  have hreset : Reports resetHeap :=
    (reports_newVar .pointer).bind fun base ↦ (reports_emit _).bind fun _ ↦ reports_emit _
  unfold lowerEntry
  dsimp only
  split
  · exact hreset.bind fun _ ↦ hmain
  · exact hmain

theorem reports_lowerForeign (t : Task) (d : Decl) (data : FunctionData) :
    Reports (lowerForeign t d data) := by
  refine (reports_mapM fun p _ ↦ ?_).bind fun params ↦ (reports_resolve data.result).bind fun h ↦
    (reports_typeOf h).bind fun type ↦ (reports_ofLayout type.slotCount).bind fun n ↦ ?_
  · exact (reports_expect _).bind fun l ↦ reports_resolve l.type
  have himport : Reports (do
      let sig ← signatureOf params h
      modify fun s ↦
        { s with
          unit :=
            { s.unit with
              imports := s.unit.imports
                ++ [{ name := t.name, symbol := d.foreignSymbol, sig := sig,
                      inTable := t.indirect }] } }) :=
    (reports_signatureOf params h).bind fun sig ↦ reports_modify fun _ _ ↦ rfl
  dsimp only
  split
  · exact (reports_report _).bind fun _ ↦ himport
  · exact himport

theorem reports_lowerDeclared (t : Task) (d : Decl) (data : FunctionData) :
    Reports (lowerDeclared t d data) :=
  (reports_resolve data.result).bind fun _ ↦
    reports_lowerFunction t.owner _ (fun f ↦ reports_lowerBody t.owner data f.result) _

theorem reports_declareGlobals : Reports declareGlobals := by
  refine reports_program.bind fun p ↦ reports_foldlM fun globals q _ ↦ ?_
  show Reports (declareGlobal globals q.1 q.2)
  unfold declareGlobal
  split
  · refine (reports_expect _).bind fun g ↦ (reports_resolve g.type).bind fun h ↦ ?_
    refine (reports_typeOf h).bind fun t ↦ (reports_ofLayout t.valueSize).bind fun size ↦ ?_
    exact (reports_modify fun _ _ ↦ rfl).bind fun _ ↦ reports_pure _
  · exact reports_pure globals

/-! ## Plans -/

theorem reports_lowerTask (globals : List (DeclId × ℕ)) (needsAlloc : Bool) (t : Task) :
    Stage.Reports (fun _ ↦ True) (lowerTask globals needsAlloc t) := by
  refine Stage.reports_get (fun _ _ ↦ rfl) fun s ↦ ?_
  dsimp only
  split
  · exact reports_lowerFunction 0 Handle.void (fun _ ↦ reports_lowerEntry needsAlloc) _ _
  split
  · split
    · split
      · exact reports_lowerForeign t _ _ _
      · exact reports_lowerDeclared t _ _ _
    · exact reports_internal _ _
  · exact reports_internal _ _

theorem reports_fillTable (tasks : List Task) :
    Stage.Reports (fun _ ↦ True) (fillTable tasks) := by
  refine (Stage.reports_forIn fun t _ _ ↦ ?_).bind fun _ ↦ Stage.reports_pure _
  split
  · exact (Stage.reports_modify fun _ _ ↦ rfl).bind fun _ ↦ Stage.reports_pure _
  · exact Stage.reports_pure _

theorem reports_lowerTasks (globals : List (DeclId × ℕ)) (needsAlloc : Bool) (parent : ℕ)
    (tasks : List Task) :
    Stage.Reports (fun _ ↦ True) (lowerTasks globals needsAlloc parent tasks) := by
  refine (Stage.reports_forIn fun t _ _ ↦ ?_).bind fun _ ↦ Stage.reports_pure _
  split
  · refine (Stage.reports_modify fun _ _ ↦ rfl).bind fun _ ↦ ?_
    exact (reports_lowerTask globals needsAlloc t).bind fun _ ↦ Stage.reports_pure _
  · exact Stage.reports_pure _

theorem reports_lowerPlan (plan : Plan) (entryExport : Text) (parent : ℕ) :
    Stage.Reports (fun _ ↦ True) (lowerPlan plan entryExport parent) := by
  refine (Stage.reports_modify fun _ _ ↦ rfl).bind fun _ ↦ ?_
  refine (reports_declareGlobals _).bind fun globals ↦ (reports_fillTable plan.tasks).bind fun _ ↦ ?_
  refine (reports_lowerTasks globals plan.needsAlloc parent plan.tasks).bind fun _ ↦ ?_
  have hunit : Stage.Reports (fun _ ↦ True) (do return (← get).unit : Step Ir.CodeUnit) :=
    Stage.reports_get (fun _ _ ↦ rfl) fun s ↦ Stage.reports_pure _
  dsimp only
  split
  · exact (Stage.reports_modify fun _ _ ↦ rfl).bind fun _ ↦ hunit
  · exact hunit

/-- **Lowering only reports**: the unit it makes does not depend on the bag. -/
theorem reports_run (plan : Plan) (entryExport : Text) (parent : ℕ) :
    Stage.Reports (fun _ ↦ True) (run plan entryExport parent) :=
  Stage.reports_adapt (reports_lowerPlan plan entryExport parent)

end WasmBackend.Lowering
