import WasmBackend.Proofs.Lowering.Values

/-!
# Writing expressions

Whatever form an expression has, lowering it goes on writing and gives a value whose variables
exist, given that this holds of its subexpressions.
-/

namespace WasmBackend.Lowering

open Ir (Instr Var)

variable {α β : Type} {σ : Scope} {frame : Frame} {n : Nat} {sub : Sub}

/-- Lowering subexpressions goes on writing, inside whatever constructs. -/
def SubWrites (sub : Sub) : Prop :=
  ∀ (σ : Scope) (frame : Frame) (n : Nat) (id : ExprId) (dst : Option Value), frame.Below n →
    Value.BelowIfAny n dst → Writes σ frame n (sub id dst) fun v m ↦ v.Below m

theorem SubWrites.apply (h : SubWrites sub) (hframe : frame.Below n) (id : ExprId) :
    Writes σ frame n (sub id none) fun v m ↦ v.Below m :=
  h σ frame n id none hframe Value.belowIfAny_none

theorem SubWrites.into (h : SubWrites sub) (hframe : frame.Below n) (id : ExprId) {d : Value}
    (hd : d.Below n) : Writes σ frame n (discard (sub id (some d))) fun _ _ ↦ True :=
  writes_discard (h σ frame n id (some d) hframe (Value.belowIfAny_some hd))

theorem writes_rvalue (h : SubWrites sub) (hframe : frame.Below n) (id : ExprId) :
    Writes σ frame n (rvalue sub id) fun vs m ↦ VarsBelow m vs :=
  (h.apply hframe id).bind fun _ _ _ hv ↦ writes_readValue hv

/-- The first variable of a subexpression. -/
theorem writes_operand (h : SubWrites sub) (hframe : frame.Below n) (id : ExprId) {f : Var → M β}
    {post : β → Nat → Prop} (hf : ∀ v m, n ≤ m → v < m → Writes σ frame m (f v) post) :
    Writes σ frame n (do f (← first (← rvalue sub id))) post := by
  refine (writes_rvalue h hframe id).bind fun vs m hm hvs ↦ ?_
  exact (writes_first hvs).bind fun v k hk hv ↦ hf v k (Nat.le_trans hm hk) hv

theorem writes_arguments (h : SubWrites sub) (hframe : frame.Below n) (ids : List ExprId) :
    Writes σ frame n (arguments sub ids) fun vs m ↦ VarsBelow m vs := by
  have hrows : Writes σ frame n (ids.mapM (rvalue sub)) fun rows m ↦ ∀ vs ∈ rows, VarsBelow m vs :=
    writes_mapM (fun vs m k hm hvs ↦ VarsBelow.mono hvs hm) fun id _ m hm ↦
      writes_rvalue h (hframe.mono hm) id
  refine hrows.bind fun rows m _ hrows ↦ writes_pure fun k hk v hv ↦ ?_
  obtain ⟨row, hrow, hv⟩ := List.mem_flatten.1 hv
  exact Nat.lt_of_lt_of_le (hrows row hrow v hv) hk

/-! ## Calls -/

theorem quiet_exprType (id : ExprId) : Quiet (exprType id) :=
  quiet_program.bind fun _ ↦ (quiet_expect _).bind fun e ↦ quiet_resolve e.type

theorem quiet_signatureOf (params : List Handle) (result : Handle) :
    Quiet (signatureOf params result) := by
  refine (quiet_mapM fun h _ ↦ quiet_slotsOf h).bind fun _ ↦ ?_
  exact (quiet_slotsOf result).bind fun _ ↦ quiet_pure _

theorem aside_unit (s : Lowering) {unit : Ir.CodeUnit} (h : unit.funcs = s.unit.funcs) :
    s.Aside { s with unit := unit } :=
  ⟨List.prefix_refl _, rfl, rfl, rfl, rfl, h⟩

theorem quiet_scratchSlot (position : Nat) (p : Prim) : Quiet (scratchSlot position p) :=
  fun _ s ↦ aside_unit s rfl

theorem quiet_calleeName (e : Expr) : Quiet (calleeName e) :=
  quiet_read fun _ ↦ (quiet_onStore _).bind fun _ ↦ quiet_onStore _

theorem writes_scratchLoad (p : Prim × Nat) :
    Writes σ frame n
      (do
        let slot ← scratchSlot (p.2 + 1) p.1
        let base ← address .scratch slot
        let w ← newVar p.1
        emit { op := .load, dst := [w], args := [base], storage := p.1 }
        return w) fun w m ↦ w < m := by
  refine (quiet_scratchSlot (p.2 + 1) p.1).writes.bind fun slot i _ _ ↦ ?_
  refine (writes_address .scratch slot).bind fun base j _ hbase ↦ ?_
  refine (writes_newVar p.1).bind fun w k hk hw ↦ ?_
  refine Writes.bind (writes_emit ⟨rfl, nofun, rfl, varsBelow_singleton.2 hw,
    varsBelow_singleton.2 (Nat.lt_of_lt_of_le hbase hk)⟩) fun _ l hl _ ↦ ?_
  exact writes_pure fun m hm ↦ Nat.lt_of_lt_of_le hw (Nat.le_trans hl hm)

theorem writes_emitCall {call : Instr} (hbranch : call.isBranch = false) (hphi : call.op ≠ .phi)
    (hcopies : call.copies = []) (hdst : call.dst = []) (hargs : VarsBelow n call.args)
    (result : Handle) :
    Writes σ frame n (emitCall call result) fun vs m ↦ VarsBelow m vs := by
  refine (quiet_slotsOf result).writes.bind fun slots i hi _ ↦ ?_
  cases slots with
  | nil =>
    refine Writes.bind (writes_emit ⟨hbranch, hphi, hcopies, by rw [hdst]; exact varsBelow_nil,
      hargs.mono hi⟩) fun _ _ _ _ ↦ ?_
    exact writes_pure fun _ _ ↦ varsBelow_nil
  | cons p rest =>
    refine (writes_newVar p).bind fun v j hj hv ↦ ?_
    refine Writes.bind (writes_emit ⟨hbranch, hphi, hcopies, varsBelow_singleton.2 hv,
      hargs.mono (Nat.le_trans hi hj)⟩) fun _ k hk _ ↦ ?_
    refine Writes.bind (writes_mapM (fun (w : Var) a b hab (hw : w < a) ↦ Nat.lt_of_lt_of_le hw hab)
      fun q _ m _ ↦ writes_scratchLoad q) fun others m hm hothers ↦ writes_pure fun l hl ↦ ?_
    refine varsBelow_cons.2 ⟨?_, fun w hw ↦ Nat.lt_of_lt_of_le (hothers w hw) hl⟩
    exact Nat.lt_of_lt_of_le hv (Nat.le_trans hk (Nat.le_trans hm hl))

theorem writes_callFunction (callee : Text) {args : List Var} (hargs : VarsBelow n args)
    (result : Handle) :
    Writes σ frame n (callFunction callee args result) fun vs m ↦ VarsBelow m vs := by
  unfold callFunction
  exact writes_emitCall (by rfl) (by nofun) rfl rfl hargs result

theorem writes_allocate (size : Nat) : Writes σ frame n (allocate size) fun v m ↦ v < m := by
  refine (writes_constant .pointer _).bind fun v i _ hv ↦ ?_
  refine (quiet_onStore _).writes.bind fun result j hj _ ↦ ?_
  refine (writes_callFunction allocFunction (varsBelow_singleton.2 (Nat.lt_of_lt_of_le hv hj))
    result).bind fun vs k _ hvs ↦ ?_
  exact writes_first hvs

theorem writes_absolute {x : Var} (hx : x < n) (storage : Prim) {dst : List Var}
    (hdst : VarsBelow n dst) : Writes σ frame n (absolute x storage dst) fun _ _ ↦ True := by
  refine (writes_constant storage _).bind fun shift i hi hshift ↦ ?_
  have hargs := varsBelow_cons.2 ⟨Nat.lt_of_lt_of_le hx hi, varsBelow_singleton.2 hshift⟩
  refine Writes.bind (writes_operation (by rfl) (by nofun) _ _ hargs) fun sign j hj hsign ↦ ?_
  have hargs' := varsBelow_cons.2 ⟨Nat.lt_of_lt_of_le hx (Nat.le_trans hi hj),
    varsBelow_singleton.2 hsign⟩
  refine Writes.bind (writes_operation (by rfl) (by nofun) _ _ hargs') fun flipped k hk hflipped ↦ ?_
  exact writes_emit ⟨rfl, nofun, rfl, hdst.mono (Nat.le_trans hi (Nat.le_trans hj hk)),
    varsBelow_cons.2 ⟨hflipped, varsBelow_singleton.2 (Nat.lt_of_lt_of_le hsign hk)⟩⟩

theorem writes_nativeResult (result : Handle) :
    Writes σ frame n (nativeResult result) fun vs m ↦ VarsBelow m vs := by
  refine (quiet_slotsOf result).writes.bind fun slots i hi _ ↦ ?_
  cases slots with
  | nil => exact writes_pure fun _ _ ↦ varsBelow_nil
  | cons p rest =>
    refine (writes_newVar p).bind fun v j _ hv ↦ writes_pure fun k hk ↦ ?_
    exact varsBelow_singleton.2 (Nat.lt_of_lt_of_le hv hk)

theorem quiet_nativeStorage (args : List Var) : Quiet (nativeStorage args) := by
  cases args with
  | nil => exact quiet_pure _
  | cons x rest => exact quiet_primOf x

theorem writes_lowerNative (name : Text) {args : List Var} (hargs : VarsBelow n args)
    (result : Handle) :
    Writes σ frame n (lowerNative name args result) fun vs m ↦ VarsBelow m vs := by
  refine (writes_nativeResult result).bind fun dst i hi hdst ↦ ?_
  refine (quiet_nativeStorage args).writes.bind fun storage j hj _ ↦ ?_
  have hdst := hdst.mono hj
  have hargs := hargs.mono (Nat.le_trans hi hj)
  dsimp only
  split
  · refine (writes_first hargs).bind fun x k hk hx ↦ ?_
    refine (writes_absolute hx storage (hdst.mono hk)).bind fun _ l hl _ ↦ ?_
    exact writes_pure fun m hm ↦ hdst.mono (Nat.le_trans hk (Nat.le_trans hl hm))
  · refine Writes.bind (writes_emit ⟨rfl, nofun, rfl, hdst, hargs⟩) fun _ k hk _ ↦ ?_
    exact writes_pure fun m hm ↦ hdst.mono (Nat.le_trans hk hm)

theorem writes_lowerCall (h : SubWrites sub) (hframe : frame.Below n) (e : Expr)
    (result : Handle) :
    Writes σ frame n (lowerCall sub e result) fun vs m ↦ VarsBelow m vs := by
  refine quiet_program.writes.bind fun p i hi _ ↦ ?_
  have hframe := hframe.mono hi
  cases p.decl? e.decl with
  | none => exact writes_internalHere _
  | some d =>
    dsimp only
    split
    · exact writes_internalHere _
    · split
      · refine (writes_arguments h hframe e.args).bind fun args j _ hargs ↦ ?_
        exact writes_lowerNative d.nativeName hargs result
      · refine (quiet_calleeName e).writes.bind fun name j hj _ ↦ ?_
        refine (writes_arguments h (hframe.mono hj) e.args).bind fun args k _ hargs ↦ ?_
        exact writes_callFunction name hargs result

theorem writes_lowerCallValue (h : SubWrites sub) (hframe : frame.Below n) (e : Expr)
    (result : Handle) :
    Writes σ frame n (lowerCallValue sub e result) fun vs m ↦ VarsBelow m vs := by
  refine writes_operand h hframe e.x fun callee i hi hcallee ↦ ?_
  refine (quiet_exprType e.x).writes.bind fun owner j hj _ ↦ ?_
  refine (quiet_typeOf owner).writes.bind fun t k hk _ ↦ ?_
  dsimp only
  split
  · exact writes_internalHere_bind _
  · refine (quiet_signatureOf t.params t.result).writes.bind fun sig l hl _ ↦ ?_
    have hle : i ≤ l := Nat.le_trans hj (Nat.le_trans hk hl)
    refine (writes_arguments h (hframe.mono (Nat.le_trans hi hle)) e.args).bind
      fun args m hm hargs ↦ ?_
    have hcallee' := varsBelow_singleton.2 (Nat.lt_of_lt_of_le hcallee (Nat.le_trans hle hm))
    exact writes_emitCall (by rfl) (by nofun) rfl rfl (varsBelow_append.2 ⟨hargs, hcallee'⟩) result

theorem writes_lowerMethodCall (h : SubWrites sub) (hframe : frame.Below n) (e : Expr)
    (result : Handle) :
    Writes σ frame n (lowerMethodCall sub e result) fun vs m ↦ VarsBelow m vs := by
  refine (quiet_exprType e.x).writes.bind fun owner i hi _ ↦ ?_
  refine (quiet_typeOf owner).writes.bind fun t j hj _ ↦ ?_
  have hframe := hframe.mono (Nat.le_trans hi hj)
  cases t.method? e.name with
  | none => exact writes_throw
  | some decl =>
    refine (writes_rvalue h hframe e.x).bind fun receiver k hk hreceiver ↦ ?_
    refine (writes_arguments h (hframe.mono hk) e.args).bind fun args l hl hargs ↦ ?_
    refine (quiet_onStore _).writes.bind fun name m hm _ ↦ ?_
    exact writes_callFunction name
      (varsBelow_append.2 ⟨hreceiver.mono (Nat.le_trans hl hm), hargs.mono hm⟩) result

theorem writes_lowerOperator (h : SubWrites sub) (hframe : frame.Below n) (e : Expr)
    (result : Handle) :
    Writes σ frame n (lowerOperator sub e result) fun vs m ↦ VarsBelow m vs := by
  refine (quiet_exprType e.x).writes.bind fun owner i hi _ ↦ ?_
  refine (quiet_typeOf owner).writes.bind fun t j hj _ ↦ ?_
  have hframe := hframe.mono (Nat.le_trans hi hj)
  cases t.operator? e.op with
  | none => exact writes_throw
  | some decl =>
    refine (writes_rvalue h hframe e.x).bind fun left k hk hleft ↦ ?_
    have hcall (right : List Var) (l : Nat) (hl : k ≤ l) (hright : VarsBelow l right) :
        Writes σ frame l (do
          let name ← onStore (TypeStore.memberName owner decl)
          callFunction name (left ++ right) result) fun vs m ↦ VarsBelow m vs := by
      refine (quiet_onStore _).writes.bind fun name m hm _ ↦ ?_
      exact writes_callFunction name
        (varsBelow_append.2 ⟨hleft.mono (Nat.le_trans hl hm), hright.mono hm⟩) result
    dsimp only
    split
    · exact hcall [] k (Nat.le_refl k) varsBelow_nil
    · exact (writes_rvalue h (hframe.mono hk) e.y).bind hcall

/-! ## Operators -/

theorem writes_lowerLogical (h : SubWrites sub) (hframe : frame.Below n) (e : Expr) :
    Writes σ frame n (lowerLogical sub e) fun v m ↦ v < m := by
  refine (writes_newVar .bool).bind fun r i hi hr ↦ ?_
  have hframe := hframe.mono hi
  refine writes_breakable (fun block ↦ ?_) (writes_pure fun m hm ↦ Nat.lt_of_lt_of_le hr hm)
  refine writes_operand h hframe e.x fun x j hj hx ↦ ?_
  have hr := Nat.lt_of_lt_of_le hr hj
  refine Writes.bind (writes_emit ⟨rfl, nofun, rfl, varsBelow_singleton.2 hr,
    varsBelow_singleton.2 hx⟩) fun _ k hk _ ↦ ?_
  have hx := Nat.lt_of_lt_of_le hx hk
  have hright (test : Var) (l : Nat) (hl : k ≤ l) (htest : test < l) :
      Writes ((block, .breakable) :: σ) frame l (do
        emit { op := .exitIf, args := [test], target := block }
        openBasic
        let y ← first (← rvalue sub e.y)
        emit { op := .copy, dst := [r], args := [y] }) fun _ _ ↦ True := by
    refine writes_branch (fun _ ↦ by simp [Ir.Function.branchViolations]) nofun rfl varsBelow_nil
      (varsBelow_singleton.2 htest) ?_
    have hframe := hframe.mono (Nat.le_trans hj (Nat.le_trans hk hl))
    refine writes_operand h hframe e.y fun y m hm hy ↦ ?_
    have hr := Nat.lt_of_lt_of_le hr (Nat.le_trans hk (Nat.le_trans hl hm))
    exact writes_emit ⟨rfl, nofun, rfl, varsBelow_singleton.2 hr, varsBelow_singleton.2 hy⟩
  dsimp only
  split
  · refine (quiet_primOf x).writes.bind fun p l hl _ ↦ ?_
    have hargs := varsBelow_singleton.2 (Nat.lt_of_lt_of_le hx hl)
    exact Writes.bind (writes_operation (by rfl) (by nofun) _ _ hargs) fun test m hm htest ↦
      hright test m (Nat.le_trans hl hm) htest
  · exact hright x k (Nat.le_refl k) hx

theorem isBranch_binaryOpcode? {o : Operator} {op : Ir.Opcode} (h : binaryOpcode? o = some op) :
    ({ op := op } : Instr).isBranch = false ∧ op ≠ .phi := by
  unfold binaryOpcode? at h
  split at h <;> cases h <;> exact ⟨rfl, nofun⟩

theorem writes_lowerBinary (h : SubWrites sub) (hframe : frame.Below n) (e : Expr)
    (t : ConcreteType) : Writes σ frame n (lowerBinary sub e t) fun v m ↦ v < m := by
  unfold lowerBinary
  split
  · exact writes_lowerLogical h hframe e
  · split
    · exact writes_internalHere _
    · rename_i op hop
      obtain ⟨hbranch, hphi⟩ := isBranch_binaryOpcode? hop
      refine writes_operand h hframe e.x fun x i hi hx ↦ ?_
      refine writes_operand h (hframe.mono hi) e.y fun y j hj hy ↦ ?_
      refine (quiet_primOf x).writes.bind fun p k hk _ ↦ ?_
      have hx := Nat.lt_of_lt_of_le hx (Nat.le_trans hj hk)
      have hargs := varsBelow_cons.2 ⟨hx, varsBelow_singleton.2 (Nat.lt_of_lt_of_le hy hk)⟩
      have hresult (l : Nat) (hl : k ≤ l) :
          Writes σ frame l (do
            let result ← expect (← ofLayout t.slots).head?
            operation op p result [x, y]) fun v m ↦ v < m := by
        refine (quiet_ofLayout t.slots).writes.bind fun slots m hm _ ↦ ?_
        refine (quiet_expect slots.head?).writes.bind fun result i' hi' _ ↦ ?_
        exact writes_operation hbranch hphi p result
          (hargs.mono (Nat.le_trans hl (Nat.le_trans hm hi')))
      dsimp only
      split
      · exact (quiet_report _).writes.bind fun _ l hl _ ↦ hresult l hl
      · exact hresult k (Nat.le_refl k)

theorem writes_lowerUnary (h : SubWrites sub) (hframe : frame.Below n) (e : Expr) (result : Prim) :
    Writes σ frame n (lowerUnary sub e result) fun v m ↦ v < m := by
  refine writes_operand h hframe e.x fun x i _ hx ↦ ?_
  refine (quiet_primOf x).writes.bind fun p j hj _ ↦ ?_
  have hx := Nat.lt_of_lt_of_le hx hj
  split
  · split
    · exact writes_operation (by rfl) (by nofun) p result (varsBelow_singleton.2 hx)
    · refine (writes_constant p 0).bind fun base k hk hbase ↦ ?_
      exact writes_operation (by rfl) (by nofun) p result
        (varsBelow_cons.2 ⟨hbase, varsBelow_singleton.2 (Nat.lt_of_lt_of_le hx hk)⟩)
  · exact writes_operation (by rfl) (by nofun) p result (varsBelow_singleton.2 hx)
  · refine (writes_constant p (-1)).bind fun ones k hk hones ↦ ?_
    exact writes_operation (by rfl) (by nofun) p result
      (varsBelow_cons.2 ⟨Nat.lt_of_lt_of_le hx hk, varsBelow_singleton.2 hones⟩)
  · exact writes_internalHere _

/-- The conversion of one slot. -/
theorem writes_convertSlot {v : Var} (hv : v < n) (p : Prim) :
    Writes σ frame n
      (do
        let source ← primOf v
        let w ← newVar p
        if source.valType = p.valType then emit { op := .copy, dst := [w], args := [v] }
        else emit { op := .convert, dst := [w], args := [v], source := source, storage := p }
        return w) fun w m ↦ w < m := by
  refine (quiet_primOf v).writes.bind fun source i hi _ ↦ ?_
  refine (writes_newVar p).bind fun w j hj hw ↦ ?_
  have hdst := varsBelow_singleton.2 hw
  have hargs := varsBelow_singleton.2 (Nat.lt_of_lt_of_le hv (Nat.le_trans hi hj))
  dsimp only
  split
  · refine Writes.bind (writes_emit ⟨rfl, nofun, rfl, hdst, hargs⟩) fun _ k hk _ ↦ ?_
    exact writes_pure fun m hm ↦ Nat.lt_of_lt_of_le hw (Nat.le_trans hk hm)
  · refine Writes.bind (writes_emit ⟨rfl, nofun, rfl, hdst, hargs⟩) fun _ k hk _ ↦ ?_
    exact writes_pure fun m hm ↦ Nat.lt_of_lt_of_le hw (Nat.le_trans hk hm)

theorem writes_lowerConvert (h : SubWrites sub) (hframe : frame.Below n) (e : Expr)
    (t : ConcreteType) : Writes σ frame n (lowerConvert sub e t) fun vs m ↦ VarsBelow m vs := by
  refine (writes_rvalue h hframe e.x).bind fun src i _ hsrc ↦ ?_
  refine (quiet_ofLayout t.slots).writes.bind fun target j hj _ ↦ ?_
  dsimp only
  split
  · exact writes_internalHere_bind _
  · refine writes_mapM (fun (w : Var) m k hm hw ↦ Nat.lt_of_lt_of_le hw hm) fun q hq m hm ↦ ?_
    exact writes_convertSlot
      (Nat.lt_of_lt_of_le (hsrc q.1 (List.of_mem_zip hq).1) (Nat.le_trans hj hm)) q.2

/-! ## Strings and aggregates -/

theorem quiet_checkLiteral (id : ExprId) (e : Expr) : Quiet (checkLiteral id e) := by
  refine quiet_get fun s ↦ ?_
  split
  · exact quiet_pure _
  · refine Quiet.bind (quiet_modify fun _ ↦ ⟨List.prefix_refl _, rfl, rfl, rfl, rfl, rfl⟩) fun _ ↦ ?_
    split
    · exact quiet_report _
    · exact quiet_pure _

theorem quiet_dataSegment (bytes : List UInt8) : Quiet (dataSegment bytes) :=
  fun _ s ↦ aside_unit s rfl

theorem writes_lowerString (id : ExprId) (e : Expr) (t : ConcreteType) :
    Writes σ frame n (lowerString id e t) fun vs m ↦ VarsBelow m vs := by
  refine (quiet_checkLiteral id e).writes.bind fun _ i _ _ ↦ ?_
  refine (quiet_dataSegment e.str.bytes).writes.bind fun segment j _ _ ↦ ?_
  refine (quiet_ofLayout t.slots).writes.bind fun slots k _ _ ↦ ?_
  split
  · refine (writes_address .data segment).bind fun v k _ hv ↦ writes_pure fun m hm ↦ ?_
    exact varsBelow_singleton.2 (Nat.lt_of_lt_of_le hv hm)
  · rename_i p
    refine (writes_address .data segment).bind fun base k _ hbase ↦ ?_
    refine (writes_constant p _).bind fun size l hl hsize ↦ writes_pure fun m hm ↦ ?_
    exact varsBelow_cons.2 ⟨Nat.lt_of_lt_of_le hbase (Nat.le_trans hl hm),
      varsBelow_singleton.2 (Nat.lt_of_lt_of_le hsize hm)⟩
  · exact (quiet_report _).writes.bind fun _ _ _ _ ↦ writes_newVars slots

/-- The members of an aggregate are assigned one by one. -/
theorem writes_members (h : SubWrites sub) (hframe : frame.Below n) {pairs : List (ExprId × Member)}
    {place : Member → M Value}
    (hplace : ∀ m k, n ≤ k → Writes σ frame k (place m) fun v i ↦ v.Below i) :
    Writes σ frame n
      (forIn pairs PUnit.unit fun (arg, m) _ => do
        let dst ← place m
        discard (sub arg (some dst))
        pure (.yield PUnit.unit)) fun _ _ ↦ True := by
  refine writes_forIn fun p _ k hk ↦ ?_
  refine (hplace p.2 k hk).bind fun dst i hi hdst ↦ ?_
  refine (h.into (hframe.mono (Nat.le_trans hk hi)) p.1 hdst).bind fun _ _ _ _ ↦ ?_
  exact writes_pure fun _ _ ↦ rfl

theorem writes_lowerConstruct (h : SubWrites sub) (hframe : frame.Below n) (e : Expr)
    (type : Handle) {dst : Option Value} (hdst : Value.BelowIfAny n dst) :
    Writes σ frame n (lowerConstruct sub e type dst) fun v m ↦ v.Below m := by
  refine (quiet_typeOf type).writes.bind fun t i hi _ ↦ ?_
  have hframe := hframe.mono hi
  have hdst := hdst.mono hi
  dsimp only
  split
  · refine (quiet_onStore _).writes.bind fun name j hj _ ↦ ?_
    refine (writes_arguments h (hframe.mono hj) e.args).bind fun args k hk hargs ↦ ?_
    refine (writes_callFunction name hargs type).bind fun vars l hl hvars ↦ ?_
    exact writes_deliver hvars type (hdst.mono (Nat.le_trans hj (Nat.le_trans hk hl)))
  · split
    · exact writes_internalHere_bind _
    · split
      · have hfill (target : Value) (j : Nat) (hj : i ≤ j) (htarget : target.Below j) :
            Writes σ frame j (do
              for (arg, m) in e.args.zip t.members do
                let place ← selectMember target m.name
                discard (sub arg (some place))
              return target) fun v m ↦ v.Below m := by
          refine (writes_members h (hframe.mono hj) fun m k hk ↦
            writes_selectMember (htarget.mono hk) m.name).bind fun _ k hk _ ↦ ?_
          exact writes_pure fun l hl ↦ htarget.mono (Nat.le_trans hk hl)
        cases dst with
        | some d => exact hfill d i (Nat.le_refl i) (hdst d rfl)
        | none =>
          refine (quiet_ofLayout t.slots).writes.bind fun slots j hj _ ↦ ?_
          refine (writes_newVars slots).bind fun vars k hk hvars ↦ ?_
          exact hfill (.direct type vars) k (Nat.le_trans hj hk) hvars
      · refine (writes_allocate t.size).bind fun pointer j hj hpointer ↦ ?_
        refine (writes_members h (hframe.mono hj) fun m k hk ↦
          writes_instanceMember (Nat.lt_of_lt_of_le hpointer hk) m).bind fun _ k hk _ ↦ ?_
        exact writes_deliver (varsBelow_singleton.2 (Nat.lt_of_lt_of_le hpointer hk)) type
          (hdst.mono (Nat.le_trans hj hk))
      · exact writes_internalHere _

/-! ## Every expression -/

theorem writes_localVars (hframe : frame.Below n) (id : LocalId) :
    Writes σ frame n (localVars id) fun vs m ↦ VarsBelow m vs := by
  refine writes_read (writes_expect fun row hrow m hm ↦ ?_)
  exact (hframe.locals row (Array.mem_of_getElem? hrow)).mono hm

theorem quiet_globalIndex (id : DeclId) : Quiet (globalIndex id) :=
  quiet_read fun _ ↦ quiet_pure _

/-- The variable of a result is delivered. -/
theorem writes_delivered {x : M Var} (hx : Writes σ frame n x fun v m ↦ v < m) (type : Handle)
    {dst : Option Value} (hdst : Value.BelowIfAny n dst) :
    Writes σ frame n (do deliver [← x] type dst) fun v m ↦ v.Below m :=
  hx.bind fun _ _ hm hv ↦ writes_deliver (varsBelow_singleton.2 hv) type (hdst.mono hm)

/-- The variables of a result are delivered. -/
theorem writes_deliveredAll {x : M (List Var)} (hx : Writes σ frame n x fun vs m ↦ VarsBelow m vs)
    (type : Handle) {dst : Option Value} (hdst : Value.BelowIfAny n dst) :
    Writes σ frame n (do deliver (← x) type dst) fun v m ↦ v.Below m :=
  hx.bind fun _ _ hm hvs ↦ writes_deliver hvs type (hdst.mono hm)

theorem writes_exprStep (h : SubWrites sub) (hframe : frame.Below n) (id : ExprId) (e : Expr)
    {dst : Option Value} (hdst : Value.BelowIfAny n dst) :
    Writes σ frame n (exprStep sub id e dst) fun v m ↦ v.Below m := by
  refine (quiet_resolve e.type).writes.bind fun type i hi _ ↦ ?_
  refine (quiet_typeOf type).writes.bind fun t j hj _ ↦ ?_
  have hframe := hframe.mono (Nat.le_trans hi hj)
  have hdst := hdst.mono (Nat.le_trans hi hj)
  split
  case h_1 =>
    refine (quiet_ofLayout t.slots).writes.bind fun slots k hk _ ↦ ?_
    refine (quiet_expect slots.head?).writes.bind fun p l hl _ ↦ ?_
    exact writes_delivered (writes_constant p e.int) type (hdst.mono (Nat.le_trans hk hl))
  case h_2 =>
    refine (quiet_ofLayout t.slots).writes.bind fun slots k hk _ ↦ ?_
    refine (quiet_expect slots.head?).writes.bind fun p l hl _ ↦ ?_
    refine (writes_newVar p).bind fun v m hm hv ↦ ?_
    refine Writes.bind (writes_emit ⟨rfl, nofun, rfl, varsBelow_singleton.2 hv, varsBelow_nil⟩)
      fun _ i' hi' _ ↦ ?_
    exact writes_deliver (varsBelow_singleton.2 (Nat.lt_of_lt_of_le hv hi')) type
      (hdst.mono (Nat.le_trans hk (Nat.le_trans hl (Nat.le_trans hm hi'))))
  case h_3 => exact writes_delivered (writes_constant .bool _) type hdst
  case h_4 => exact writes_delivered (writes_constant .pointer 0) type hdst
  case h_5 => exact writes_deliveredAll (writes_lowerString id e t) type hdst
  case h_6 =>
    refine (writes_localVars hframe e.loc).bind fun vars k hk hvars ↦ ?_
    exact writes_deliverValue (v := .direct type vars) hvars (hdst.mono hk)
  case h_7 =>
    exact writes_read (writes_deliverValue (v := .direct frame.selfType frame.self) hframe.self hdst)
  case h_8 =>
    refine (quiet_globalIndex e.decl).writes.bind fun index k hk _ ↦ ?_
    exact writes_deliverValue (v := .global type index 0) trivial (hdst.mono hk)
  case h_9 =>
    refine (writes_newVar .pointer).bind fun v k hk hv ↦ ?_
    refine (quiet_calleeName e).writes.bind fun name l hl _ ↦ ?_
    refine Writes.bind (writes_modify fun s ↦ aside_unit s rfl) fun _ m hm _ ↦ ?_
    have hv := Nat.lt_of_lt_of_le hv (Nat.le_trans hl hm)
    refine Writes.bind (writes_emit ⟨rfl, nofun, rfl, varsBelow_singleton.2 hv, varsBelow_nil⟩)
      fun _ i' hi' _ ↦ ?_
    exact writes_deliver (varsBelow_singleton.2 (Nat.lt_of_lt_of_le hv hi')) type
      (hdst.mono (Nat.le_trans hk (Nat.le_trans hl (Nat.le_trans hm hi'))))
  case h_10 => exact writes_deliveredAll (writes_lowerCall h hframe e type) type hdst
  case h_11 => exact writes_deliveredAll (writes_lowerCallValue h hframe e type) type hdst
  case h_12 => exact writes_deliveredAll (writes_lowerMethodCall h hframe e type) type hdst
  case h_13 => exact writes_deliveredAll (writes_lowerOperator h hframe e type) type hdst
  case h_14 =>
    refine (h.apply hframe e.x).bind fun whole k hk hwhole ↦ ?_
    refine (writes_selectMember hwhole e.name).bind fun part l hl hpart ↦ ?_
    exact writes_deliverValue hpart (hdst.mono (Nat.le_trans hk hl))
  case h_15 => exact writes_delivered (writes_lowerBinary h hframe e t) type hdst
  case h_16 =>
    refine (quiet_ofLayout t.slots).writes.bind fun slots k hk _ ↦ ?_
    refine (quiet_expect slots.head?).writes.bind fun result l hl _ ↦ ?_
    have hle := Nat.le_trans hk hl
    exact writes_delivered (writes_lowerUnary h (hframe.mono hle) e result) type (hdst.mono hle)
  case h_17 => exact writes_deliveredAll (writes_lowerConvert h hframe e t) type hdst
  case h_18 => exact writes_lowerConstruct h hframe e type hdst
  case h_19 =>
    refine (quiet_typeOf t.elem).writes.bind fun element k hk _ ↦ ?_
    refine (quiet_ofLayout element.valueSize).writes.bind fun size l hl _ ↦ ?_
    refine (writes_allocate size).bind fun pointer m hm hpointer ↦ ?_
    have hle := Nat.le_trans hk (Nat.le_trans hl hm)
    have hresult (i' : Nat) (hi' : m ≤ i') :
        Writes σ frame i' (deliver [pointer] type dst) fun v k ↦ v.Below k :=
      writes_deliver (varsBelow_singleton.2 (Nat.lt_of_lt_of_le hpointer hi')) type
        (hdst.mono (Nat.le_trans hle hi'))
    dsimp only
    split
    · exact Writes.bind (h.into (d := .relative t.elem pointer 0) (hframe.mono hle) e.x hpointer)
        fun _ i' hi' _ ↦ hresult i' hi'
    · exact hresult m (Nat.le_refl m)
  case h_20 =>
    refine writes_operand h hframe e.x fun base k hk hbase ↦ ?_
    exact writes_deliverValue (v := .relative type base 0) hbase (hdst.mono hk)
  case h_21 => exact writes_internalHere _

theorem subWrites_lowerWithin (depth : Nat) : SubWrites (lowerWithin depth) := by
  induction depth with
  | zero =>
    intro σ frame n id dst _ _
    exact writes_throw
  | succ depth ih =>
    intro σ frame n id dst hframe hdst
    refine quiet_program.writes.bind fun p i hi _ ↦ ?_
    cases p.expr? id with
    | none => exact writes_internalHere _
    | some e => exact writes_exprStep ih (hframe.mono hi) id e (hdst.mono hi)

/-- Lowering an expression goes on writing, and its value lies in variables that exist. -/
theorem subWrites_lowerExpr : SubWrites lowerExpr := by
  intro σ frame n id dst hframe hdst
  refine quiet_program.writes.bind fun p i hi _ ↦ ?_
  exact subWrites_lowerWithin _ σ frame i id dst (hframe.mono hi) (hdst.mono hi)

end WasmBackend.Lowering
