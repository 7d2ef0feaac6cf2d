import WasmBackend.Proofs.Lowering.Linking

/-!
# Code of expressions and statements that refers to what is there

What an expression refers to was found when its task was followed, and so was its type.  Each form
of expression links when its parts do; `lowerExpr` follows by induction on the depth, and statements
by induction on their nesting.
-/

namespace WasmBackend.Lowering

open Ir (Instr Var)
open Stage (Meets)

variable {α β : Type} {σ : Scheduler} {frame : Frame} {s : Lowering} {sub : Sub}

/-- Lowering a subexpression links, wherever what it refers to is there. -/
def SubLinks (σ : Scheduler) (sub : Sub) : Prop :=
  ∀ (frame : Frame) (id : ExprId) (dst : Option Value), σ.Requires frame.selfType →
    σ.CoversExpr frame.scope id → (∀ d ∈ dst, σ.Requires d.type) →
      Links σ frame (sub id dst) fun v ↦ σ.Requires v.type

/-! ## Calls -/

theorem links_signatureOf (hσ : σ.Finished) {params : List Handle} {result : Handle}
    (hparts : ∀ g ∈ params ++ [result], σ.Requires g) :
    Links σ frame (signatureOf params result) fun _ ↦ True := by
  refine (links_each fun h hh ↦ links_slotsOf hσ (hparts h (List.mem_append_left _ hh))).bind
    fun _ _ ↦ ?_
  exact (links_slotsOf hσ (hparts result (by simp))).bind fun _ _ ↦ links_pure trivial

theorem links_scratchSlot (position : Nat) (p : Prim) :
    Links σ frame (scratchSlot position p) fun _ ↦ True :=
  fun _ hs ↦ ⟨⟨hs.laid, hs.table, hs.code⟩, ⟨rfl, rfl⟩, trivial⟩

theorem linksFrom_emitCall {call : Instr} (hcall : σ.Supplies call) {result : Handle}
    (hslots : LinksFrom σ frame s (slotsOf result) fun _ ↦ True) :
    LinksFrom σ frame s (emitCall call result) fun _ ↦ True := by
  refine hslots.bind fun slots _ ↦ ?_
  cases slots with
  | nil => exact (links_emit hcall).bind fun _ _ ↦ links_pure trivial
  | cons p rest =>
    refine (links_newVar p).bind fun v _ ↦ ?_
    refine Links.bind (links_emit ⟨hcall.call, hcall.funcRef⟩) fun _ _ ↦ ?_
    refine Links.bind (links_each fun q _ ↦ ?_) fun _ _ ↦ links_pure trivial
    refine (links_scratchSlot (q.2 + 1) q.1).bind fun slot _ ↦ ?_
    refine (links_address .scratch slot).bind fun base _ ↦ (links_newVar q.1).bind fun w _ ↦ ?_
    exact Links.bind (links_emit ⟨nofun, nofun⟩) fun _ _ ↦ links_pure trivial

theorem links_emitCall (hσ : σ.Finished) {call : Instr} (hcall : σ.Supplies call) {result : Handle}
    (hresult : σ.Requires result) : Links σ frame (emitCall call result) fun _ ↦ True :=
  fun s ↦ linksFrom_emitCall hcall (links_slotsOf hσ hresult s)

theorem supplies_call {callee : Text} (hcallee : σ.Callable callee) (args : List Var) :
    σ.Supplies { op := .call, args := args, callee := callee } :=
  ⟨fun _ ↦ hcallee, nofun⟩

theorem links_callFunction (hσ : σ.Finished) {callee : Text} (hcallee : σ.Callable callee)
    (args : List Var) {result : Handle} (hresult : σ.Requires result) :
    Links σ frame (callFunction callee args result) fun _ ↦ True :=
  links_emitCall hσ (supplies_call hcallee args) hresult

/-- The allocator may be called where the plan asks for it; its result is an address, a type that
no task may have asked for. -/
theorem links_allocate (hσ : σ.Finished) (halloc : σ.needsAlloc) (size : Nat) :
    Links σ frame (allocate size) fun _ ↦ True := by
  refine (links_constant .pointer _).bind fun n _ ↦ ?_
  refine fun s hs ↦ meets_bind.2 (meets_onStore ((TypeStore.ensures_prim .pointer).imp ?_))
  rintro h store ⟨hadv, hh⟩
  rw [if_neg (by decide)] at hh
  have hslots : LinksFrom σ frame { s with store := store } (slotsOf h) fun _ ↦ True :=
    linksFrom_slotsOf_pointer hσ hh
  have hcall := linksFrom_emitCall (supplies_call (.inr ⟨halloc, rfl⟩) [n]) hslots
  have hs₁ : Linked σ { s with store := store } := ⟨hs.laid.mono hadv, hs.table, hs.code⟩
  refine ((hcall.bind fun vs _ ↦ links_first vs) hs₁).imp ?_
  rintro v s₂ ⟨hs₂, hsame, -⟩
  exact ⟨hs₂, ⟨hsame.imports, hsame.funcs⟩, trivial⟩

/-- The symbol that a call of a function makes is that of its task. -/
theorem links_calleeName {e : Expr} {args : List Handle}
    (hargs : σ.store.denoteAll e.typeArgs frame.scope = some args) :
    Links σ frame (calleeName e) (σ.Symbol (.function e.decl args)) := by
  have hresolved : Links σ frame (onStore (TypeStore.resolveAll e.typeArgs frame.scope))
      fun args' ↦ args = args' := by
    refine links_onStore (fun _ ↦ TypeStore.ensures_resolveAll e.typeArgs frame.scope) ?_
    intro args' store hlaid hargs'
    exact Option.some.inj ((hlaid.advances.denoteAll hargs).symm.trans hargs')
  refine links_read (hresolved.bind ?_)
  rintro _ rfl
  exact links_onStore (fun _ ↦ TypeStore.ensures_functionName e.decl args)
    fun _ store hlaid hn ↦ ⟨store, hlaid.advances.toExtends, hn⟩

/-- The symbol made for a member function is that of its task. -/
theorem links_memberName (x : TaskId)
    (hx : ∀ store : TypeStore, store.taskName? x = store.memberName? x.owner x.decl) :
    Links σ frame (onStore (TypeStore.memberName x.owner x.decl)) (σ.Symbol x) :=
  links_onStore (fun _ ↦ TypeStore.ensures_memberName x.owner x.decl)
    fun _ store hlaid hn ↦ ⟨store, hlaid.advances.toExtends, (hx store).trans hn⟩

theorem links_absolute (x : Var) (storage : Prim) (dst : List Var) :
    Links σ frame (absolute x storage dst) fun _ ↦ True := by
  refine (links_constant storage _).bind fun shift _ ↦ ?_
  refine (links_operation (by nofun) (by nofun) storage.asSigned storage [x, shift]).bind fun sign _ ↦ ?_
  refine (links_operation (by nofun) (by nofun) storage storage [x, sign]).bind fun flipped _ ↦ ?_
  exact links_emit ⟨nofun, nofun⟩

theorem links_lowerNative (hσ : σ.Finished) (name : Text) (args : List Var) {result : Handle}
    (hresult : σ.Requires result) :
    Links σ frame (lowerNative name args result) fun _ ↦ True := by
  have hdst : Links σ frame (nativeResult result) fun _ ↦ True := by
    refine (links_slotsOf hσ hresult).bind fun slots _ ↦ ?_
    cases slots with
    | nil => exact links_pure trivial
    | cons p rest => exact (links_newVar p).bind fun _ _ ↦ links_pure trivial
  have hstorage : Links σ frame (nativeStorage args) fun _ ↦ True := by
    cases args with
    | nil => exact links_pure trivial
    | cons x rest => exact links_primOf x
  refine hdst.bind fun dst _ ↦ hstorage.bind fun storage _ ↦ ?_
  dsimp only
  split
  · refine (links_first args).bind fun x _ ↦ ?_
    exact (links_absolute x storage dst).bind fun _ _ ↦ links_pure trivial
  · exact Links.bind (links_emit ⟨nofun, nofun⟩) fun _ _ ↦ links_pure trivial

/-! ## Forms of expressions -/

section

variable (hσ : σ.Finished) (hsub : SubLinks σ sub) (hself : σ.Requires frame.selfType)

include hsub hself

theorem links_sub {id : ExprId} (hid : σ.CoversExpr frame.scope id) :
    Links σ frame (sub id none) fun v ↦ σ.Requires v.type :=
  hsub frame id none hself hid fun _ hd ↦ absurd hd (by simp)

theorem links_into {id : ExprId} (hid : σ.CoversExpr frame.scope id) {d : Value}
    (hd : σ.Requires d.type) : Links σ frame (discard (sub id (some d))) fun _ ↦ True :=
  links_discard (hsub frame id (some d) hself hid fun d' hd' ↦ by
    rw [← Option.some.inj hd']
    exact hd)

include hσ

theorem links_rvalue {id : ExprId} (hid : σ.CoversExpr frame.scope id) :
    Links σ frame (rvalue sub id) fun _ ↦ True :=
  (links_sub hsub hself hid).bind fun _ hv ↦ links_readValue hσ hv

/-- The first variable of a subexpression. -/
theorem links_operand {id : ExprId} (hid : σ.CoversExpr frame.scope id) {f : Var → M β}
    {post : β → Prop} (hf : ∀ v, Links σ frame (f v) post) :
    Links σ frame (do f (← first (← rvalue sub id))) post :=
  (links_rvalue hσ hsub hself hid).bind fun vs _ ↦ (links_first vs).bind fun v _ ↦ hf v

theorem links_arguments {ids : List ExprId} (hids : ∀ id ∈ ids, σ.CoversExpr frame.scope id) :
    Links σ frame (arguments sub ids) fun _ ↦ True :=
  Links.bind (links_each fun id hid ↦ links_rvalue hσ hsub hself (hids id hid))
    fun _ _ ↦ links_pure trivial

omit hσ hsub hself in
/-- The type of an expression in the tree is required. -/
theorem links_exprType {id : ExprId} (hid : σ.CoversExpr frame.scope id) :
    Links σ frame (exprType id) fun h ↦ σ.Requires h ∧
      ∀ e, σ.store.program.expr? id = some e → σ.store.denote e.type frame.scope = some h := by
  refine links_program.bind ?_
  rintro _ rfl
  cases he : σ.store.program.expr? id with
  | none => exact links_throw
  | some e =>
    refine Links.imp (links_resolve (hid.requiresType he)) ?_
    rintro h ⟨hh, hreq⟩
    refine ⟨hreq, fun e' he' ↦ ?_⟩
    rw [← Option.some.inj he']
    exact hh

variable {id : ExprId} {e : Expr} (he : σ.store.program.expr? id = some e)
  (hid : σ.CoversExpr frame.scope id) {result : Handle} (hresult : σ.Requires result)

include he hid

include hresult in
theorem links_lowerCall (hkind : e.kind = .call) :
    Links σ frame (lowerCall sub e result) fun _ ↦ True := by
  obtain ⟨-, hcovers⟩ := hid.covers he
  rw [hkind] at hcovers
  obtain ⟨d, hd, hcall⟩ := hcovers
  have hargs := links_arguments hσ hsub hself fun _ ↦ hid.arg he
  refine links_program.bind ?_
  rintro _ rfl
  rw [hd]
  dsimp only
  split
  · exact links_internalHere _
  · split
    · exact hargs.bind fun args _ ↦ links_lowerNative hσ d.nativeName args hresult
    · rename_i hnative
      obtain ⟨types, htypes, hhas⟩ := hcall (by simpa using hnative)
      refine (links_calleeName htypes).bind fun name hname ↦ hargs.bind fun args _ ↦ ?_
      exact links_callFunction hσ (hσ.callable hhas nofun hname) args hresult

include hresult in
theorem links_lowerCallValue : Links σ frame (lowerCallValue sub e result) fun _ ↦ True := by
  refine links_operand hσ hsub hself (hid.left he) fun callee ↦ ?_
  refine (links_exprType (hid.left he)).bind fun h hh ↦ (links_typeOf h).bind fun t ht ↦ ?_
  dsimp only
  split
  · exact links_internalHere_bind _
  · refine (links_signatureOf hσ fun g hg ↦ ht.requires_part hσ hh.1 hg).bind fun sig _ ↦ ?_
    refine (links_arguments hσ hsub hself fun _ ↦ hid.arg he).bind fun args _ ↦ ?_
    exact links_emitCall hσ ⟨by nofun, by nofun⟩ hresult

include hresult in
theorem links_lowerMethodCall (hkind : e.kind = .methodCall) :
    Links σ frame (lowerMethodCall sub e result) fun _ ↦ True := by
  obtain ⟨-, hcovers⟩ := hid.covers he
  rw [hkind] at hcovers
  obtain ⟨receiver, h, decl, hreceiver, hh, hdecl, hhas⟩ := hcovers
  refine (links_exprType (hid.left he)).bind fun owner howner ↦ ?_
  obtain rfl : owner = h := Option.some.inj ((howner.2 receiver hreceiver).symm.trans hh)
  refine (links_typeOf owner).bind fun t ht ↦ ?_
  cases hfound : t.method? e.name with
  | none => exact links_internal _
  | some found =>
    obtain rfl := ht.method_eq hσ hdecl hfound
    refine (links_rvalue hσ hsub hself (hid.left he)).bind fun vs _ ↦ ?_
    refine (links_arguments hσ hsub hself fun _ ↦ hid.arg he).bind fun args _ ↦ ?_
    refine (links_memberName (.method found owner) fun _ ↦ rfl).bind fun name hname ↦ ?_
    exact links_callFunction hσ (hσ.callable hhas nofun hname) _ hresult

include hresult in
theorem links_lowerOperator (hkind : e.kind = .operator) :
    Links σ frame (lowerOperator sub e result) fun _ ↦ True := by
  obtain ⟨-, hcovers⟩ := hid.covers he
  rw [hkind] at hcovers
  obtain ⟨receiver, h, decl, hreceiver, hh, hdecl, hhas⟩ := hcovers
  refine (links_exprType (hid.left he)).bind fun owner howner ↦ ?_
  obtain rfl : owner = h := Option.some.inj ((howner.2 receiver hreceiver).symm.trans hh)
  refine (links_typeOf owner).bind fun t ht ↦ ?_
  cases hfound : t.operator? e.op with
  | none => exact links_internal _
  | some found =>
    obtain rfl := ht.operator_eq hσ hdecl hfound
    refine (links_rvalue hσ hsub hself (hid.left he)).bind fun left _ ↦ ?_
    have hcall (right : List Var) : Links σ frame (do
        let name ← onStore (TypeStore.memberName owner found)
        callFunction name (left ++ right) result) fun _ ↦ True := by
      refine (links_memberName (.operator found owner) fun _ ↦ rfl).bind fun name hname ↦ ?_
      exact links_callFunction hσ (hσ.callable hhas nofun hname) _ hresult
    dsimp only
    split
    · exact hcall []
    · exact (links_rvalue hσ hsub hself (hid.right he)).bind fun right _ ↦ hcall right

theorem links_lowerLogical : Links σ frame (lowerLogical sub e) fun _ ↦ True := by
  refine (links_newVar .bool).bind fun r _ ↦ (links_newBlock .breakable).bind fun block _ ↦ ?_
  refine Links.bind (links_nested ?_) fun body _ ↦ Links.bind (links_updateBlock fun _ ↦ rfl)
    fun _ _ ↦ links_openBasic.bind fun _ _ ↦ links_pure trivial
  refine links_operand hσ hsub hself (hid.left he) fun x ↦ ?_
  refine Links.bind (links_emit ⟨nofun, nofun⟩) fun _ _ ↦ ?_
  have hright (test : Var) : Links σ frame (do
      emit { op := .exitIf, args := [test], target := block }
      openBasic
      let y ← first (← rvalue sub e.y)
      emit { op := .copy, dst := [r], args := [y] }) fun _ ↦ True := by
    refine Links.bind (links_emit ⟨nofun, nofun⟩) fun _ _ ↦ links_openBasic.bind fun _ _ ↦ ?_
    exact links_operand hσ hsub hself (hid.right he) fun y ↦ links_emit ⟨nofun, nofun⟩
  dsimp only
  split
  · refine (links_primOf x).bind fun p _ ↦ ?_
    exact (links_operation (by nofun) (by nofun) p .bool [x]).bind fun test _ ↦ hright test
  · exact hright x

omit hσ hsub hself he hid in
theorem binaryOpcode?_ne {o : Operator} {op : Ir.Opcode} (h : binaryOpcode? o = some op) :
    op ≠ .call ∧ op ≠ .funcRef := by
  unfold binaryOpcode? at h
  split at h <;> cases h <;> exact ⟨nofun, nofun⟩

theorem links_lowerBinary {t : ConcreteType} (ht : t.Usable) :
    Links σ frame (lowerBinary sub e t) fun _ ↦ True := by
  unfold lowerBinary
  split
  · exact links_lowerLogical hσ hsub hself he hid
  · split
    · exact links_internalHere _
    · rename_i op hop
      obtain ⟨hcall, href⟩ := binaryOpcode?_ne hop
      refine links_operand hσ hsub hself (hid.left he) fun x ↦ ?_
      refine links_operand hσ hsub hself (hid.right he) fun y ↦ ?_
      refine (links_primOf x).bind fun p _ ↦ ?_
      have hresult : Links σ frame (do
          let result ← expect (← ofLayout t.slots).head?
          operation op p result [x, y]) fun _ ↦ True := by
        refine (links_ofLayout ht.slots).bind fun slots _ ↦ ?_
        refine Links.bind (links_expect fun _ _ ↦ trivial) fun result _ ↦ ?_
        exact links_operation hcall href p result [x, y]
      dsimp only
      split
      · exact (links_report _).bind fun _ _ ↦ hresult
      · exact hresult

theorem links_lowerUnary (result : Prim) : Links σ frame (lowerUnary sub e result) fun _ ↦ True := by
  refine links_operand hσ hsub hself (hid.left he) fun x ↦ (links_primOf x).bind fun p _ ↦ ?_
  split
  · split
    · exact links_operation (by nofun) (by nofun) p result [x]
    · exact (links_constant p 0).bind fun base _ ↦ links_operation (by nofun) (by nofun) p result [base, x]
  · exact links_operation (by nofun) (by nofun) p result [x]
  · exact (links_constant p (-1)).bind fun ones _ ↦ links_operation (by nofun) (by nofun) p result [x, ones]
  · exact links_internalHere _

theorem links_lowerConvert {t : ConcreteType} (ht : t.Usable) :
    Links σ frame (lowerConvert sub e t) fun _ ↦ True := by
  refine (links_rvalue hσ hsub hself (hid.left he)).bind fun src _ ↦ ?_
  refine (links_ofLayout ht.slots).bind fun target _ ↦ ?_
  dsimp only
  split
  · exact links_internalHere_bind _
  · refine links_each fun q _ ↦ (links_primOf q.1).bind fun source _ ↦ ?_
    refine (links_newVar q.2).bind fun w _ ↦ ?_
    split
    · exact Links.bind (links_emit ⟨nofun, nofun⟩) fun _ _ ↦ links_pure trivial
    · exact Links.bind (links_emit ⟨nofun, nofun⟩) fun _ _ ↦ links_pure trivial

omit hσ hsub hself he hid in
theorem links_lowerString {t : ConcreteType} (ht : t.Usable) :
    Links σ frame (lowerString id e t) fun _ ↦ True := by
  have hmark : Links σ frame (modify fun s ↦ { s with checked := id :: s.checked }) fun _ ↦ True :=
    links_modify (fun _ hs ↦ ⟨hs.laid, hs.table, hs.code⟩) fun _ ↦ ⟨rfl, rfl⟩
  have hcheck : Links σ frame (checkLiteral id e) fun _ ↦ True := by
    refine links_get fun s _ ↦ ?_
    split
    · exact links_pure trivial s
    · refine (hmark.bind fun _ _ ↦ ?_) s
      split
      · exact links_report _
      · exact links_pure trivial
  have hsegment : Links σ frame (dataSegment e.str.bytes) fun _ ↦ True :=
    fun _ hs ↦ ⟨⟨hs.laid, hs.table, hs.code⟩, ⟨rfl, rfl⟩, trivial⟩
  refine hcheck.bind fun _ _ ↦ hsegment.bind fun segment _ ↦ ?_
  refine (links_ofLayout ht.slots).bind fun slots _ ↦ ?_
  split
  · exact (links_address .data segment).bind fun _ _ ↦ links_pure trivial
  · refine (links_address .data segment).bind fun _ _ ↦ ?_
    exact (links_constant _ _).bind fun _ _ ↦ links_pure trivial
  · exact (links_report _).bind fun _ _ ↦ links_newVars _

omit hσ hsub hself he hid in
theorem links_localVars (i : LocalId) : Links σ frame (localVars i) fun _ ↦ True :=
  links_read (links_expect fun _ _ ↦ trivial)

omit hσ hsub hself he hid in
theorem links_globalIndex (i : DeclId) : Links σ frame (globalIndex i) fun _ ↦ True :=
  fun s hs ↦ ⟨hs, .refl s, trivial⟩

/-- An aggregate is made by its constructor, which is a task, or member by member. -/
theorem links_lowerConstruct (hkind : e.kind = .construct) {h : Handle}
    (hh : σ.store.denote e.type frame.scope = some h) (hreq : σ.Requires h) {dst : Option Value}
    (hdst : ∀ d ∈ dst, σ.Requires d.type) :
    Links σ frame (lowerConstruct sub e h dst) fun v ↦ σ.Requires v.type := by
  obtain ⟨-, hcovers⟩ := hid.covers he
  rw [hkind] at hcovers
  obtain ⟨h', agg, types, k, hh', hagg, hk, hinit, halloc⟩ := hcovers
  obtain rfl : h' = h := Option.some.inj (hh'.symm.trans hh)
  refine (links_typeOf h').bind fun t ht ↦ ?_
  have hsame : t.init = agg.init := ht.init_eq hσ hagg
  dsimp only
  split
  · rename_i hne
    rw [hsame] at hne ⊢
    refine (links_memberName (.constructor agg.init h') fun _ ↦ rfl).bind fun name hname ↦ ?_
    refine (links_arguments hσ hsub hself fun _ ↦ hid.arg he).bind fun args _ ↦ ?_
    refine (links_callFunction hσ (hσ.callable (hinit hne) nofun hname) args hreq).bind
      fun vars _ ↦ links_deliver hσ vars hreq hdst
  · rename_i hnone
    have hmember {p : ExprId × Member} (hp : p ∈ e.args.zip t.members) :
        σ.CoversExpr frame.scope p.1 ∧ σ.Requires p.2.type :=
      ⟨hid.arg he (List.of_mem_zip hp).1, ht.requires_member hσ hreq (List.of_mem_zip hp).2⟩
    split
    · exact links_internalHere_bind _
    split
    · have hfill (target : Value) (htarget : σ.Requires target.type) : Links σ frame (do
          for p in e.args.zip t.members do
            let place ← selectMember target p.2.name
            discard (sub p.1 (some place))
          return target) fun v ↦ σ.Requires v.type := by
        refine Links.bind (links_forIn fun p hp ↦ ?_) fun _ _ ↦ links_pure htarget
        refine (links_selectMember hσ htarget p.2.name).bind fun place hplace ↦ ?_
        exact (links_into hsub hself (hmember hp).1 hplace).bind fun _ _ ↦ links_pure rfl
      cases dst with
      | some d => exact hfill d (hdst d rfl)
      | none =>
        refine (links_ofLayout (ht.usable hσ hreq).slots).bind fun slots _ ↦ ?_
        exact (links_newVars slots).bind fun vars _ ↦ hfill (.direct h' vars) hreq
    · rename_i hcls
      have hneeds : σ.needsAlloc :=
        halloc (hsame.symm.trans (by simpa using hnone)) ((ht.kind_eq hσ hk).symm.trans hcls)
      refine (links_allocate hσ hneeds t.size).bind fun pointer _ ↦ ?_
      refine Links.bind (links_forIn fun p hp ↦ ?_) fun _ _ ↦ links_deliver hσ _ hreq hdst
      refine (links_instanceMember pointer (hmember hp).2).bind fun place hplace ↦ ?_
      exact (links_into hsub hself (hmember hp).1 hplace).bind fun _ _ ↦ links_pure rfl
    · exact links_internalHere _

/-- An expression links when what it is made of does. -/
theorem links_exprStep {dst : Option Value} (hdst : ∀ d ∈ dst, σ.Requires d.type) :
    Links σ frame (exprStep sub id e dst) fun v ↦ σ.Requires v.type := by
  have hcovers := hid.covers he
  refine (links_resolve hcovers.1).bind ?_
  rintro h ⟨hh, hreq⟩
  refine (links_typeOf h).bind fun t ht ↦ ?_
  have husable := ht.usable hσ hreq
  have hdeliver {x : M (List Var)} (hx : Links σ frame x fun _ ↦ True) :
      Links σ frame (do deliver (← x) h dst) fun v ↦ σ.Requires v.type :=
    hx.bind fun vars _ ↦ links_deliver hσ vars hreq hdst
  have hsingle {x : M Var} (hx : Links σ frame x fun _ ↦ True) :
      Links σ frame (do deliver [← x] h dst) fun v ↦ σ.Requires v.type :=
    hx.bind fun v _ ↦ links_deliver hσ [v] hreq hdst
  have hslot {β : Type} {f : Prim → M β} {post : β → Prop} (hf : ∀ p, Links σ frame (f p) post) :
      Links σ frame (do f (← expect (← ofLayout t.slots).head?)) post :=
    (links_ofLayout husable.slots).bind fun _ _ ↦
      Links.bind (links_expect fun _ _ ↦ trivial) fun p _ ↦ hf p
  cases hkind : e.kind
  case int => exact hslot fun p ↦ hsingle (links_constant p e.int)
  case float =>
    refine hslot fun p ↦ (links_newVar p).bind fun v _ ↦ ?_
    exact Links.bind (links_emit ⟨nofun, nofun⟩) fun _ _ ↦ links_deliver hσ [v] hreq hdst
  case bool => exact hsingle (links_constant .bool _)
  case null => exact hsingle (links_constant .pointer 0)
  case string => exact hdeliver (links_lowerString husable)
  case loc =>
    exact (links_localVars e.loc).bind fun vars _ ↦ links_deliverValue hσ (.direct h vars) hreq hdst
  case self => exact links_read (links_deliverValue hσ (.direct _ frame.self) hself hdst)
  case global =>
    exact (links_globalIndex e.decl).bind fun index _ ↦
      links_deliverValue hσ (.global h index 0) hreq hdst
  case funcRef =>
    obtain ⟨-, hrest⟩ := hcovers
    rw [hkind] at hrest
    obtain ⟨d, -, hvalue, hreject⟩ := hrest
    have hnative : d.has .native = false := by
      by_contra h
      exact absurd (hreject (by simpa using h)) (by simp [hσ.errors])
    obtain ⟨args, hargs, hhas⟩ := hvalue hnative
    refine (links_newVar .pointer).bind fun v _ ↦ (links_calleeName hargs).bind fun name hname ↦ ?_
    have hmem : name ∈ σ.table := hσ.mem_table hhas hname
    have htable : Links σ frame (modify fun s ↦ { s with unit := (s.unit.internTable name).2 })
        fun _ ↦ True := by
      refine links_modify (fun s hs ↦ ⟨hs.laid, ?_, hs.code⟩) fun _ ↦ ⟨rfl, rfl⟩
      rw [Ir.CodeUnit.snd_internTable, hs.table]
      exact if_pos hmem
    refine htable.bind fun _ _ ↦ ?_
    exact Links.bind (links_emit ⟨nofun, fun _ ↦ hmem⟩) fun _ _ ↦ links_deliver hσ [v] hreq hdst
  case call => exact hdeliver (links_lowerCall hσ hsub hself he hid hreq hkind)
  case callValue => exact hdeliver (links_lowerCallValue hσ hsub hself he hid hreq)
  case methodCall => exact hdeliver (links_lowerMethodCall hσ hsub hself he hid hreq hkind)
  case operator => exact hdeliver (links_lowerOperator hσ hsub hself he hid hreq hkind)
  case member =>
    refine (links_sub hsub hself (hid.left he)).bind fun whole hwhole ↦ ?_
    refine (links_selectMember hσ hwhole e.name).bind fun part hpart ↦ ?_
    exact links_deliverValue hσ part hpart hdst
  case binary => exact hsingle (links_lowerBinary hσ hsub hself he hid husable)
  case unary => exact hslot fun p ↦ hsingle (links_lowerUnary hσ hsub hself he hid p)
  case convert => exact hdeliver (links_lowerConvert hσ hsub hself he hid husable)
  case construct => exact links_lowerConstruct hσ hsub hself he hid hkind hh hreq hdst
  case alloc =>
    obtain ⟨-, hneeds⟩ := hcovers
    rw [hkind] at hneeds
    have helem : σ.Requires t.elem := ht.requires_elem hσ hreq
    refine (links_typeOf t.elem).bind fun elem hready ↦ ?_
    refine (links_ofLayout (hready.usable hσ helem).valueSize).bind fun size _ ↦ ?_
    refine (links_allocate hσ hneeds size).bind fun pointer _ ↦ ?_
    dsimp only
    split
    · exact (links_into hsub hself (hid.left he) (d := .relative t.elem pointer 0) helem).bind
        fun _ _ ↦ links_deliver hσ [pointer] hreq hdst
    · exact links_deliver hσ [pointer] hreq hdst
  case deref =>
    exact links_operand hσ hsub hself (hid.left he) fun base ↦
      links_deliverValue hσ (.relative h base 0) hreq hdst
  case unknown => exact links_internalHere _

end

theorem subLinks_lowerWithin (hσ : σ.Finished) (depth : Nat) : SubLinks σ (lowerWithin depth) := by
  induction depth with
  | zero => exact fun _ _ _ _ _ _ ↦ links_throw
  | succ depth ih =>
    intro frame id dst hself hid hdst
    refine links_program.bind ?_
    rintro _ rfl
    cases he : σ.store.program.expr? id with
    | none => exact links_internalHere _
    | some e => exact links_exprStep hσ ih hself he hid hdst

/-- Lowering an expression links. -/
theorem subLinks_lowerExpr (hσ : σ.Finished) : SubLinks σ lowerExpr :=
  fun frame id dst hself hid hdst ↦ links_program.bind fun _ _ ↦
    subLinks_lowerWithin hσ _ frame id dst hself hid hdst

/-! ## Statements -/

/-- The types of the receiver and of the locals of a function are required. -/
structure CoversFrame (σ : Scheduler) (frame : Frame) : Prop where
  self : σ.Requires frame.selfType
  locals : ∀ f, frame.function = some f → ∀ l ∈ f.locals, σ.RequiresType l.type frame.scope
  mainLocals : frame.function = none → ∀ l ∈ σ.store.program.mainLocals,
    σ.RequiresType l.type frame.scope

theorem links_frameLocals (hframe : CoversFrame σ frame) :
    Links σ frame frameLocals fun ls ↦ ∀ l ∈ ls, σ.RequiresType l.type frame.scope := by
  refine links_read ?_
  cases hfunction : frame.function with
  | some f => exact links_pure (hframe.locals f hfunction)
  | none =>
    refine links_program.bind ?_
    rintro _ rfl
    exact links_pure (hframe.mainLocals hfunction)

theorem links_lowerReturn (vars : List Var) : Links σ frame (lowerReturn vars) fun _ ↦ True := by
  cases vars with
  | nil => exact links_emit ⟨nofun, nofun⟩
  | cons v rest =>
    refine Links.bind (links_forIn fun q _ ↦ ?_) fun _ _ ↦ links_emit ⟨nofun, nofun⟩
    refine (links_primOf q.1).bind fun p _ ↦ (links_scratchSlot (q.2 + 1) p).bind fun slot _ ↦ ?_
    refine (links_address .scratch slot).bind fun base _ ↦ ?_
    exact Links.bind (links_emit ⟨nofun, nofun⟩) fun _ _ ↦ links_pure rfl

theorem links_clear (vars : List Var) : Links σ frame (clear vars) fun _ ↦ True := by
  refine Links.bind (links_forIn fun v _ ↦ ?_) fun _ _ ↦ links_pure trivial
  exact (links_primOf v).bind fun p _ ↦ (links_constInto v p 0).bind fun _ _ ↦ links_pure rfl

section

variable (hσ : σ.Finished) (hframe : CoversFrame σ frame)

include hσ hframe

/-- The place that an assignment writes to is of a type that is required. -/
theorem links_targetWithin (depth : Nat) {id : ExprId} (hid : σ.CoversExpr frame.scope id) :
    Links σ frame (targetWithin depth id) fun v ↦ σ.Requires v.type := by
  have hsub := subLinks_lowerExpr hσ
  induction depth generalizing id with
  | zero => exact links_throw
  | succ depth ih =>
    refine links_program.bind ?_
    rintro _ rfl
    cases he : σ.store.program.expr? id with
    | none => exact links_throw
    | some e =>
      refine (links_resolve (hid.requiresType he)).bind ?_
      rintro h ⟨-, hh⟩
      split
      · exact (links_localVars e.loc).bind fun _ _ ↦ links_pure hh
      · exact links_read (links_pure hframe.self)
      · exact (links_globalIndex e.decl).bind fun _ _ ↦ links_pure hh
      · exact links_operand hσ hsub hframe.self (hid.left he) fun _ ↦ links_pure hh
      · refine (links_exprType (hid.left he)).bind fun owner _ ↦ (links_typeOf owner).bind fun t _ ↦ ?_
        split
        · exact (links_sub hsub hframe.self (hid.left he)).bind fun v hv ↦
            links_selectMember hσ hv e.name
        · exact (ih (hid.left he)).bind fun v hv ↦ links_selectMember hσ hv e.name
      · exact links_internalHere _

theorem links_assignTarget {id : ExprId} (hid : σ.CoversExpr frame.scope id) :
    Links σ frame (assignTarget id) fun v ↦ σ.Requires v.type :=
  links_program.bind fun _ _ ↦ links_targetWithin hσ hframe _ hid

/-- Lowering nested lists of statements links, wherever what they refer to is there. -/
def ListLinks (σ : Scheduler) (frame : Frame) (sub : List StmtId → M Unit) : Prop :=
  ∀ ids, σ.CoversStmts frame.scope ids → Links σ frame (sub ids) fun _ ↦ True

variable {ids : List StmtId} (hids : σ.CoversStmts frame.scope ids) {id : StmtId} (hid : id ∈ ids)
  {st : Stmt} (hst : σ.store.program.stmt? id = some st) {inner : List StmtId → M Unit}
  (hinner : ListLinks σ frame inner)

include hids hid hst

theorem links_lowerBind : Links σ frame (lowerBind st) fun _ ↦ True := by
  refine (links_frameLocals hframe).bind fun locals hlocals ↦ ?_
  refine Links.bind (links_expect fun l hl ↦ hlocals l (List.mem_of_getElem? hl)) fun l hl ↦ ?_
  refine (links_resolve hl).bind ?_
  rintro h ⟨-, hh⟩
  refine (links_localVars st.loc).bind fun vars _ ↦ ?_
  split
  · exact links_clear vars
  · exact links_into (subLinks_lowerExpr hσ) hframe.self (hids.expr hid hst) (d := .direct h vars) hh

theorem links_lowerAssign : Links σ frame (lowerAssign st) fun _ ↦ True := by
  have hexpr := hids.expr hid hst
  refine (links_assignTarget hσ hframe (hids.target hid hst)).bind fun target htarget ↦ ?_
  refine links_program.bind fun p _ ↦ ?_
  dsimp only
  split
  · refine (links_sub (subLinks_lowerExpr hσ) hframe.self hexpr).bind fun v hv ↦ ?_
    exact (links_readValue hσ hv).bind fun vars _ ↦ links_writeValue hσ htarget vars
  · exact links_into (subLinks_lowerExpr hσ) hframe.self hexpr htarget

include hinner

theorem links_lowerCond : Links σ frame (lowerCond inner st) fun _ ↦ True := by
  have hbody := hinner _ (hids.nested hid hst (List.subset_append_left st.body st.otherwise))
  have hother := hinner _ (hids.nested hid hst (List.subset_append_right st.body st.otherwise))
  refine links_operand hσ (subLinks_lowerExpr hσ) hframe.self (hids.expr hid hst) fun cond ↦ ?_
  dsimp only
  split
  · refine (links_newBlock .cond).bind fun block _ ↦ (links_nested hbody).bind fun body _ ↦ ?_
    exact Links.bind (links_updateBlock fun _ ↦ rfl) fun _ _ ↦ links_openBasic
  · refine (links_newBlock .branch).bind fun block _ ↦ (links_nested hbody).bind fun body _ ↦ ?_
    refine (links_nested hother).bind fun other _ ↦ ?_
    exact Links.bind (links_updateBlock fun _ ↦ rfl) fun _ _ ↦ links_openBasic

theorem links_lowerLoop : Links σ frame (lowerLoop inner st) fun _ ↦ True := by
  have hbody := hinner _ (hids.nested hid hst (List.subset_append_left st.body st.otherwise))
  have hloops (f : Lowering → List Ir.BlockId) :
      Links σ frame (modify fun s ↦ { s with loops := f s }) fun _ ↦ True :=
    links_modify (fun _ hs ↦ ⟨hs.laid, hs.table, hs.code⟩) fun _ ↦ ⟨rfl, rfl⟩
  refine (links_newBlock .loop).bind fun block _ ↦ (hloops fun s ↦ block :: s.loops).bind fun _ _ ↦ ?_
  refine Links.bind (links_nested ?_) fun body _ ↦ ?_
  · refine links_operand hσ (subLinks_lowerExpr hσ) hframe.self (hids.expr hid hst) fun cond ↦ ?_
    refine (links_newVar .bool).bind fun leave _ ↦ (links_primOf cond).bind fun p _ ↦ ?_
    refine Links.bind (links_emit ⟨nofun, nofun⟩) fun _ _ ↦ ?_
    refine Links.bind (links_emit ⟨nofun, nofun⟩) fun _ _ ↦ ?_
    exact links_openBasic.bind fun _ _ ↦ hbody
  · refine Links.bind (links_updateBlock fun _ ↦ rfl) fun _ _ ↦ ?_
    exact (hloops fun s ↦ s.loops.tail).bind fun _ _ ↦ links_openBasic

omit hσ hframe hids hid hst hinner in
theorem links_lowerJump {op : Ir.Opcode} (hcall : op ≠ .call) (href : op ≠ .funcRef) (st : Stmt) :
    Links σ frame (lowerJump op st) fun _ ↦ True := by
  refine links_get fun s _ ↦ ?_
  cases s.loops with
  | nil => exact links_internalHere _ s
  | cons target outer =>
    refine Links.bind (links_emit ?_) (fun _ _ ↦ links_openBasic) s
    exact ⟨fun h ↦ absurd h hcall, fun h ↦ absurd h href⟩

theorem links_stmtStep : Links σ frame (stmtStep inner st) fun _ ↦ True := by
  have hsub := subLinks_lowerExpr hσ
  have hexpr := hids.expr hid hst
  unfold stmtStep
  split
  case h_1 => exact links_discard (links_sub hsub hframe.self hexpr)
  case h_2 => exact links_lowerBind hσ hframe hids hid hst
  case h_3 => exact links_lowerAssign hσ hframe hids hid hst
  case h_4 => exact links_lowerCond hσ hframe hids hid hst hinner
  case h_5 => exact links_lowerLoop hσ hframe hids hid hst hinner
  case h_6 => exact links_lowerJump (by nofun) (by nofun) st
  case h_7 => exact links_lowerJump (by nofun) (by nofun) st
  case h_8 =>
    refine links_read ?_
    dsimp only
    split
    · exact (links_lowerReturn frame.self).bind fun _ _ ↦ links_openBasic
    · split
      · exact (links_lowerReturn []).bind fun _ _ ↦ links_openBasic
      · refine (links_rvalue hσ hsub hframe.self hexpr).bind fun vars _ ↦ ?_
        exact (links_lowerReturn vars).bind fun _ _ ↦ links_openBasic
  case h_9 => exact links_pure trivial

omit hids hid hst hinner in
theorem listLinks_stmtsWithin (depth : Nat) : ListLinks σ frame (stmtsWithin depth) := by
  induction depth with
  | zero => exact fun _ _ ↦ links_throw
  | succ depth ih =>
    intro ids hids
    refine Links.bind (links_forIn fun id hid ↦ ?_) fun _ _ ↦ links_pure trivial
    refine links_program.bind ?_
    rintro _ rfl
    cases hst : σ.store.program.stmt? id with
    | none => exact links_internalHere_bind _
    | some st =>
      exact (links_stmtStep hσ hframe hids hid hst ih).bind fun _ _ ↦ links_pure rfl

omit hids hid hst hinner in
/-- Lowering a list of statements links. -/
theorem listLinks_lowerStmts : ListLinks σ frame lowerStmts :=
  fun _ hids ↦ links_program.bind fun _ _ ↦ listLinks_stmtsWithin hσ hframe _ _ hids

end

end WasmBackend.Lowering
