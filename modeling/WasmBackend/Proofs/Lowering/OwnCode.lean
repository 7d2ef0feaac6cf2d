import WasmBackend.Proofs.Lowering.Enlarging

/-!
# The code of expressions is tame

Whatever form an expression has, lowering it adds tame code only: its results lie in variables that
were made for it or belong to the frame, and where the value was asked for in a place made for it,
it goes there.
-/

namespace WasmBackend

open Ir (Instr Var)

/-- The variables of a value satisfy `p`; a place inside a global needs `anywhere`. -/
def Value.On (p : Var → Prop) (anywhere : Prop) : Value → Prop
  | .direct _ slots => ∀ v ∈ slots, p v
  | .relative _ base _ => p base
  | .global _ _ _ => anywhere

/-- The variables of a value may be read. -/
def Value.Seen (frame : Frame) (n : Nat) : Value → Prop :=
  Value.On (frame.Sees n) True

/-- A place behind variables that were made for the code itself. -/
def Value.Own (n : Nat) : Value → Prop :=
  Value.On (n ≤ ·) False

/-- A value in memory, or in variables that were made for it. -/
def Value.Made (n : Nat) : Value → Prop
  | .direct _ slots => ∀ v ∈ slots, n ≤ v
  | .relative _ _ _ | .global _ _ _ => True

theorem Value.On.imp {p q : Var → Prop} {g g' : Prop} {v : Value} (h : v.On p g)
    (hp : ∀ x, p x → q x) (hg : g → g') : v.On q g' := by
  cases v with
  | direct _ slots => exact fun x hx ↦ hp x (h x hx)
  | relative _ base _ => exact hp base h
  | global _ _ _ => exact hg h

theorem Frame.sees_of_le {frame : Frame} {n : Nat} {v : Var} (h : n ≤ v) : frame.Sees n v :=
  .inr h

theorem Value.Own.seen {frame : Frame} {n : Nat} {v : Value} (h : v.Own n) : v.Seen frame n :=
  Value.On.imp h (fun _ ↦ Frame.sees_of_le) False.elim

theorem Value.On.made {n : Nat} {g : Prop} {v : Value} (h : v.On (n ≤ ·) g) : v.Made n := by
  cases v with
  | direct _ _ => exact h
  | relative _ _ _ | global _ _ _ => trivial

theorem Value.Own.made {n : Nat} {v : Value} (h : v.Own n) : v.Made n :=
  Value.On.made h

namespace Lowering

variable {α β : Type} {frame : Frame} {n b : Nat} {names : Prop} {sub : Sub}

/-! ## Instructions -/

/-- An operation that stores nothing and directs no control. -/
theorem tame_operation {i : Instr} (hcontrol : i.isControl = false) (hstore : i.op ≠ .store)
    (hcopies : i.copies = []) (hdst : ∀ v ∈ i.dst, n ≤ v) (hargs : ∀ v ∈ i.args, frame.Sees n v) :
    Tame frame n b i where
  control h := by
    rw [hcontrol] at h
    cases h
  no_copies := hcopies
  dst := hdst
  args := hargs
  stores h := absurd h hstore

theorem enlarges_constInto {v : Var} (hv : n ≤ v) (p : Prim) (k : Int64) :
    Enlarges frame n b (constInto v p k) fun _ ↦ True := by
  unfold constInto
  split
  · exact enlarges_emit (tame_operation rfl nofun rfl (by simpa using hv) (by simp))
  · exact enlarges_emit (tame_operation rfl nofun rfl (by simpa using hv) (by simp))

theorem enlarges_constant (p : Prim) (k : Int64) :
    Enlarges frame n b (constant p k) fun v ↦ n ≤ v := by
  refine (enlarges_newVar p).bind fun v hv ↦ ?_
  exact (enlarges_constInto hv p k).bind fun _ _ ↦ enlarges_pure hv

theorem enlarges_address (zone : Ir.Zone) (index : Nat) :
    Enlarges frame n b (address zone index) fun v ↦ n ≤ v := by
  refine (enlarges_newVar .pointer).bind fun v hv ↦ ?_
  refine Enlarges.bind (enlarges_emit (tame_operation rfl nofun rfl (by simpa using hv)
    (by simp))) fun _ _ ↦ ?_
  exact enlarges_pure hv

theorem enlarges_operation {op : Ir.Opcode} (hcontrol : ({ op := op } : Instr).isControl = false)
    (hstore : op ≠ .store) (storage result : Prim) {args : List Var}
    (hargs : ∀ v ∈ args, frame.Sees n v) :
    Enlarges frame n b (operation op storage result args) fun v ↦ n ≤ v := by
  refine (enlarges_newVar result).bind fun v hv ↦ ?_
  refine Enlarges.bind (enlarges_emit (tame_operation hcontrol hstore rfl (by simpa using hv)
    hargs)) fun _ _ ↦ ?_
  exact enlarges_pure hv

/-! ## Values -/

section

variable {p : Var → Prop} {g : Prop}

/-- The place of a value; the address of a global is a variable of its own. -/
theorem enlarges_place? (hp : ∀ x, n ≤ x → p x) {v : Value} (hv : v.On p g) :
    Enlarges frame n b (place? v) fun q ↦ ∀ r ∈ q, p r.1 := by
  cases v with
  | direct t slots => exact enlarges_pure (by simp)
  | relative t base offset => exact enlarges_pure (by simpa [Value.On] using hv)
  | global t index offset =>
    refine (enlarges_address .global index).bind fun base hbase ↦ enlarges_pure ?_
    simpa using hp base hbase

theorem enlarges_placed (hp : ∀ x, n ≤ x → p x) {v : Value} (hv : v.On p g)
    {f : Var × UInt32 → M β} {post : β → Prop}
    (hf : ∀ q, p q.1 → Enlarges frame n b (f q) post) :
    Enlarges frame n b (do f (← expect (← place? v))) post := by
  refine (enlarges_place? hp hv).bind fun q hq ↦ ?_
  exact (enlarges_expect hq).bind hf

/-- What is read from memory goes to new variables. -/
theorem enlarges_readMade (hp : ∀ x, n ≤ x → p x) (hsees : ∀ x, p x → frame.Sees n x) {v : Value}
    (hv : v.On p g) (hmade : v.Made n) :
    Enlarges frame n b (readValue v) fun vs ↦ ∀ x ∈ vs, n ≤ x := by
  cases v with
  | direct t slots => exact enlarges_pure hmade
  | relative t base offset | global t index offset =>
    refine enlarges_placed hp hv fun q hq ↦ ?_
    refine (quiet_typeOf t).enlarges.bind fun type _ ↦ ?_
    refine (quiet_ofLayout type.entries).enlarges.bind fun entries _ ↦ ?_
    refine enlarges_mapM fun e _ ↦ ?_
    refine (enlarges_newVar e.prim).bind fun x hx ↦ ?_
    refine (quiet_offset32 e.offset).enlarges.bind fun at32 _ ↦ ?_
    refine Enlarges.bind (enlarges_emit (tame_operation rfl nofun rfl (by simpa using hx)
      (by simpa using hsees q.1 hq))) fun _ _ ↦ ?_
    exact enlarges_pure hx

theorem enlarges_readValue (hp : ∀ x, n ≤ x → p x) (hsees : ∀ x, p x → frame.Sees n x) {v : Value}
    (hv : v.On p g) : Enlarges frame n b (readValue v) fun vs ↦ ∀ x ∈ vs, p x := by
  have hread (hmade : v.Made n) : Enlarges frame n b (readValue v) fun vs ↦ ∀ x ∈ vs, p x :=
    (enlarges_readMade hp hsees hv hmade).imp fun vs hvs x hx ↦ hp x (hvs x hx)
  cases v with
  | direct t slots => exact enlarges_pure hv
  | relative t base offset | global t index offset => exact hread trivial

theorem enlarges_instanceMember {pointer : Var} (hpointer : p pointer) (m : Member) :
    Enlarges frame n b (instanceMember pointer m) (Value.On p g) :=
  (quiet_offset32 m.offset).enlarges.bind fun _ _ ↦ enlarges_pure hpointer

theorem enlarges_selectMember (hp : ∀ x, n ≤ x → p x) (hsees : ∀ x, p x → frame.Sees n x)
    {v : Value} (hv : v.On p g) (name : Text) :
    Enlarges frame n b (selectMember v name) (Value.On p g) := by
  refine (quiet_typeOf v.type).enlarges.bind fun t _ ↦ ?_
  cases t.member? name with
  | none => exact enlarges_throw
  | some m =>
    dsimp only
    split
    · refine (enlarges_readValue hp hsees hv).bind fun vars hvars ↦ ?_
      exact (enlarges_first hvars).bind fun pointer hpointer ↦ enlarges_instanceMember hpointer m
    · cases v with
      | direct t' slots =>
        refine (quiet_typeOf m.type).enlarges.bind fun type _ ↦ ?_
        refine (quiet_ofLayout type.slotCount).enlarges.bind fun count _ ↦ ?_
        split
        · exact enlarges_pure fun w hw ↦ hv w (List.mem_of_mem_drop (List.mem_of_mem_take hw))
        · exact enlarges_throw
      | relative t' base offset =>
        exact (quiet_offset32 m.offset).enlarges.bind fun _ _ ↦ enlarges_pure hv
      | global t' index offset =>
        exact (quiet_offset32 m.offset).enlarges.bind fun _ _ ↦ enlarges_pure hv
    · exact enlarges_throw

end

theorem enlarges_writeValue {g : Prop} {dst : Value} (hdst : dst.On (n ≤ ·) g) {src : List Var}
    (hsrc : ∀ v ∈ src, frame.Sees n v) :
    Enlarges frame n b (writeValue dst src) fun _ ↦ True := by
  cases dst with
  | direct t slots =>
    unfold writeValue
    dsimp only
    split
    · exact enlarges_internalHere_bind _
    · refine Enlarges.bind (enlarges_forIn fun q hq ↦ ?_) fun _ _ ↦ enlarges_pure trivial
      obtain ⟨hd, hv⟩ := List.of_mem_zip hq
      split
      · exact Enlarges.bind (enlarges_emit (tame_operation rfl nofun rfl
          (by simpa using hdst _ hd) (by simpa using hsrc _ hv))) fun _ _ ↦ enlarges_pure rfl
      · exact enlarges_pure rfl
  | relative t base offset | global t index offset =>
    refine enlarges_placed (fun _ h ↦ h) hdst fun q hq ↦ ?_
    refine (quiet_typeOf t).enlarges.bind fun type _ ↦ ?_
    refine (quiet_ofLayout type.entries).enlarges.bind fun entries _ ↦ ?_
    dsimp only
    split
    · exact enlarges_internalHere_bind _
    · refine Enlarges.bind (enlarges_forIn fun r hr ↦ ?_) fun _ _ ↦ enlarges_pure trivial
      refine (quiet_offset32 r.1.offset).enlarges.bind fun at32 _ ↦ ?_
      have hv := hsrc _ (List.of_mem_zip hr).2
      refine Enlarges.bind (enlarges_emit ⟨⟨nofun, rfl, by simp, ?_⟩, by simpa using hq⟩)
        fun _ _ ↦ enlarges_pure rfl
      simpa using ⟨Frame.sees_of_le hq, hv⟩

/-! ## Subexpressions -/

/-- The place that a value is asked for in is the code's own, if there is one. -/
def OwnIfAny (n : Nat) (dst : Option Value) : Prop :=
  ∀ d ∈ dst, d.Own n

theorem ownIfAny_none : OwnIfAny n none := by
  simp [OwnIfAny]

theorem ownIfAny_some {d : Value} (h : d.Own n) : OwnIfAny n (some d) := by
  simpa [OwnIfAny] using h

/-- Lowering subexpressions adds tame code only. -/
def SubEnlarges (sub : Sub) : Prop :=
  ∀ (frame : Frame) (n b : Nat) (id : ExprId) (dst : Option Value), OwnIfAny n dst →
    Enlarges frame n b (sub id dst) (Value.Seen frame n)

theorem SubEnlarges.apply (h : SubEnlarges sub) (id : ExprId) :
    Enlarges frame n b (sub id none) (Value.Seen frame n) :=
  h frame n b id none ownIfAny_none

theorem SubEnlarges.into (h : SubEnlarges sub) (id : ExprId) {d : Value} (hd : d.Own n) :
    Enlarges frame n b (discard (sub id (some d))) fun _ ↦ True :=
  enlarges_discard (h frame n b id (some d) (ownIfAny_some hd))

theorem enlarges_readSeen {v : Value} (hv : v.Seen frame n) :
    Enlarges frame n b (readValue v) fun vs ↦ ∀ x ∈ vs, frame.Sees n x :=
  enlarges_readValue (fun _ ↦ Frame.sees_of_le) (fun _ h ↦ h) hv

theorem enlarges_rvalue (h : SubEnlarges sub) (id : ExprId) :
    Enlarges frame n b (rvalue sub id) fun vs ↦ ∀ v ∈ vs, frame.Sees n v :=
  (h.apply id).bind fun _ hv ↦ enlarges_readSeen hv

theorem enlarges_operand (h : SubEnlarges sub) (id : ExprId) {f : Var → M β} {post : β → Prop}
    (hf : ∀ v, frame.Sees n v → Enlarges frame n b (f v) post) :
    Enlarges frame n b (do f (← first (← rvalue sub id))) post :=
  (enlarges_rvalue h id).bind fun _ hvs ↦ (enlarges_first hvs).bind hf

theorem enlarges_arguments (h : SubEnlarges sub) (ids : List ExprId) :
    Enlarges frame n b (arguments sub ids) fun vs ↦ ∀ v ∈ vs, frame.Sees n v := by
  refine (enlarges_mapM fun id _ ↦ enlarges_rvalue h id).bind fun rows hrows ↦ ?_
  refine enlarges_pure fun v hv ↦ ?_
  obtain ⟨row, hrow, hv⟩ := List.mem_flatten.1 hv
  exact hrows row hrow v hv

/-- What an expression gives is seen.  Where no place was asked for, it lies in memory or in
variables made for it, unless the expression only names it. -/
def Given (frame : Frame) (n : Nat) (names : Prop) (dst : Option Value) (v : Value) : Prop :=
  v.Seen frame n ∧ (dst = none → ¬names → v.Made n)

/-- The results of an operation are delivered to where they are wanted. -/
theorem enlarges_deliver {vars : List Var} (hvars : ∀ v ∈ vars, n ≤ v) (h : Handle)
    {dst : Option Value} (hdst : OwnIfAny n dst) :
    Enlarges frame n b (deliver vars h dst) (Given frame n names dst) := by
  cases dst with
  | none => exact enlarges_pure ⟨fun v hv ↦ Frame.sees_of_le (hvars v hv), fun _ _ ↦ hvars⟩
  | some d =>
    have hd : d.Own n := hdst d rfl
    exact (enlarges_writeValue hd fun v hv ↦ Frame.sees_of_le (hvars v hv)).bind fun _ _ ↦
      enlarges_pure ⟨hd.seen, nofun⟩

theorem enlarges_deliverValue {v : Value} (hv : v.Seen frame n) (hmade : ¬names → v.Made n)
    {dst : Option Value} (hdst : OwnIfAny n dst) :
    Enlarges frame n b (deliverValue v dst) (Given frame n names dst) := by
  cases dst with
  | none => exact enlarges_pure ⟨hv, fun _ ↦ hmade⟩
  | some d =>
    have hd : d.Own n := hdst d rfl
    refine (enlarges_readSeen hv).bind fun vars hvars ↦ ?_
    exact (enlarges_writeValue hd hvars).bind fun _ _ ↦ enlarges_pure ⟨hd.seen, nofun⟩

/-! ## Calls -/

theorem sees_append {vs ws : List Var} (hvs : ∀ v ∈ vs, frame.Sees n v)
    (hws : ∀ v ∈ ws, frame.Sees n v) : ∀ v ∈ vs ++ ws, frame.Sees n v :=
  List.forall_mem_append.2 ⟨hvs, hws⟩

theorem enlarges_emitCall {call : Instr} (hcontrol : call.isControl = false)
    (hstore : call.op ≠ .store) (hcopies : call.copies = []) (hdst : call.dst = [])
    (hargs : ∀ v ∈ call.args, frame.Sees n v) (result : Handle) :
    Enlarges frame n b (emitCall call result) fun vs ↦ ∀ v ∈ vs, n ≤ v := by
  refine (quiet_slotsOf result).enlarges.bind fun slots _ ↦ ?_
  cases slots with
  | nil =>
    refine Enlarges.bind (enlarges_emit (tame_operation hcontrol hstore hcopies
      (by simp [hdst]) hargs)) fun _ _ ↦ ?_
    exact enlarges_pure (by simp)
  | cons p rest =>
    refine (enlarges_newVar p).bind fun v hv ↦ ?_
    refine Enlarges.bind (enlarges_emit (tame_operation hcontrol hstore hcopies
      (by simpa using hv) hargs)) fun _ _ ↦ ?_
    suffices hload : ∀ q : Prim × Nat, Enlarges frame n b (do
        let slot ← scratchSlot (q.2 + 1) q.1
        let base ← address .scratch slot
        let w ← newVar q.1
        emit { op := .load, dst := [w], args := [base], storage := q.1 }
        return w) fun w ↦ n ≤ w from
      (enlarges_mapM fun q _ ↦ hload q).bind fun others hothers ↦
        enlarges_pure (List.forall_mem_cons.2 ⟨hv, hothers⟩)
    intro q
    refine (quiet_scratchSlot (q.2 + 1) q.1).enlarges.bind fun slot _ ↦ ?_
    refine (enlarges_address .scratch slot).bind fun base hbase ↦ ?_
    refine (enlarges_newVar q.1).bind fun w hw ↦ ?_
    refine Enlarges.bind (enlarges_emit (tame_operation rfl nofun rfl (by simpa using hw)
      (by simpa using Frame.sees_of_le hbase))) fun _ _ ↦ ?_
    exact enlarges_pure hw

theorem enlarges_callFunction (callee : Text) {args : List Var}
    (hargs : ∀ v ∈ args, frame.Sees n v) (result : Handle) :
    Enlarges frame n b (callFunction callee args result) fun vs ↦ ∀ v ∈ vs, n ≤ v := by
  unfold callFunction
  exact enlarges_emitCall (by rfl) (by nofun) rfl rfl hargs result

theorem enlarges_allocate (size : Nat) : Enlarges frame n b (allocate size) fun v ↦ n ≤ v := by
  refine (enlarges_constant .pointer _).bind fun v hv ↦ ?_
  refine (quiet_onStore _).enlarges.bind fun result _ ↦ ?_
  have hargs : ∀ x ∈ [v], frame.Sees n x := by simpa using Frame.sees_of_le hv
  refine (enlarges_callFunction allocFunction hargs result).bind fun vs hvs ↦ ?_
  exact enlarges_first hvs

theorem enlarges_absolute {x : Var} (hx : frame.Sees n x) (storage : Prim) {dst : List Var}
    (hdst : ∀ v ∈ dst, n ≤ v) : Enlarges frame n b (absolute x storage dst) fun _ ↦ True := by
  refine (enlarges_constant storage _).bind fun shift hshift ↦ ?_
  have hargs {v : Var} (hv : n ≤ v) : ∀ w ∈ [x, v], frame.Sees n w := by
    simpa using ⟨hx, Frame.sees_of_le hv⟩
  refine Enlarges.bind (enlarges_operation (by rfl) (by nofun) _ _ (hargs hshift))
    fun sign hsign ↦ ?_
  refine Enlarges.bind (enlarges_operation (by rfl) (by nofun) _ _ (hargs hsign))
    fun flipped hflipped ↦ ?_
  exact enlarges_emit (tame_operation rfl nofun rfl hdst
    (by simpa using ⟨Frame.sees_of_le hflipped, Frame.sees_of_le hsign⟩))

theorem enlarges_nativeResult (result : Handle) :
    Enlarges frame n b (nativeResult result) fun vs ↦ ∀ v ∈ vs, n ≤ v := by
  refine (quiet_slotsOf result).enlarges.bind fun slots _ ↦ ?_
  cases slots with
  | nil => exact enlarges_pure (by simp)
  | cons p rest => exact (enlarges_newVar p).bind fun v hv ↦ enlarges_pure (by simpa using hv)

theorem enlarges_lowerNative (name : Text) {args : List Var} (hargs : ∀ v ∈ args, frame.Sees n v)
    (result : Handle) :
    Enlarges frame n b (lowerNative name args result) fun vs ↦ ∀ v ∈ vs, n ≤ v := by
  refine (enlarges_nativeResult result).bind fun dst hdst ↦ ?_
  refine (quiet_nativeStorage args).enlarges.bind fun storage _ ↦ ?_
  dsimp only
  split
  · refine (enlarges_first hargs).bind fun x hx ↦ ?_
    exact (enlarges_absolute hx storage hdst).bind fun _ _ ↦ enlarges_pure hdst
  · refine Enlarges.bind (enlarges_emit (tame_operation rfl nofun rfl hdst hargs))
      fun _ _ ↦ ?_
    exact enlarges_pure hdst

theorem enlarges_lowerCall (h : SubEnlarges sub) (e : Expr) (result : Handle) :
    Enlarges frame n b (lowerCall sub e result) fun vs ↦ ∀ v ∈ vs, n ≤ v := by
  refine quiet_program.enlarges.bind fun p _ ↦ ?_
  cases p.decl? e.decl with
  | none => exact enlarges_internalHere _
  | some d =>
    dsimp only
    split
    · exact enlarges_internalHere _
    · split
      · exact (enlarges_arguments h e.args).bind fun args hargs ↦
          enlarges_lowerNative d.nativeName hargs result
      · refine (quiet_calleeName e).enlarges.bind fun name _ ↦ ?_
        exact (enlarges_arguments h e.args).bind fun args hargs ↦
          enlarges_callFunction name hargs result

theorem enlarges_lowerCallValue (h : SubEnlarges sub) (e : Expr) (result : Handle) :
    Enlarges frame n b (lowerCallValue sub e result) fun vs ↦ ∀ v ∈ vs, n ≤ v := by
  refine enlarges_operand h e.x fun callee hcallee ↦ ?_
  refine (quiet_exprType e.x).enlarges.bind fun owner _ ↦ ?_
  refine (quiet_typeOf owner).enlarges.bind fun t _ ↦ ?_
  dsimp only
  split
  · exact enlarges_internalHere_bind _
  · refine (quiet_signatureOf t.params t.result).enlarges.bind fun sig _ ↦ ?_
    refine (enlarges_arguments h e.args).bind fun args hargs ↦ ?_
    exact enlarges_emitCall (by rfl) (by nofun) rfl rfl
      (sees_append hargs (by simpa using hcallee)) result

theorem enlarges_lowerMethodCall (h : SubEnlarges sub) (e : Expr) (result : Handle) :
    Enlarges frame n b (lowerMethodCall sub e result) fun vs ↦ ∀ v ∈ vs, n ≤ v := by
  refine (quiet_exprType e.x).enlarges.bind fun owner _ ↦ ?_
  refine (quiet_typeOf owner).enlarges.bind fun t _ ↦ ?_
  cases t.method? e.name with
  | none => exact enlarges_throw
  | some decl =>
    refine (enlarges_rvalue h e.x).bind fun receiver hreceiver ↦ ?_
    refine (enlarges_arguments h e.args).bind fun args hargs ↦ ?_
    refine (quiet_onStore _).enlarges.bind fun name _ ↦ ?_
    exact enlarges_callFunction name (sees_append hreceiver hargs) result

theorem enlarges_lowerOperator (h : SubEnlarges sub) (e : Expr) (result : Handle) :
    Enlarges frame n b (lowerOperator sub e result) fun vs ↦ ∀ v ∈ vs, n ≤ v := by
  refine (quiet_exprType e.x).enlarges.bind fun owner _ ↦ ?_
  refine (quiet_typeOf owner).enlarges.bind fun t _ ↦ ?_
  cases t.operator? e.op with
  | none => exact enlarges_throw
  | some decl =>
    refine (enlarges_rvalue h e.x).bind fun left hleft ↦ ?_
    have hcall (right : List Var) (hright : ∀ v ∈ right, frame.Sees n v) :
        Enlarges frame n b (do
          let name ← onStore (TypeStore.memberName owner decl)
          callFunction name (left ++ right) result) fun vs ↦ ∀ v ∈ vs, n ≤ v :=
      (quiet_onStore _).enlarges.bind fun name _ ↦
        enlarges_callFunction name (sees_append hleft hright) result
    dsimp only
    split
    · exact hcall [] (by simp)
    · exact (enlarges_rvalue h e.y).bind hcall

/-! ## Operators -/

theorem enlarges_lowerLogical (h : SubEnlarges sub) (e : Expr) :
    Enlarges frame n b (lowerLogical sub e) fun v ↦ n ≤ v := by
  refine (enlarges_newVar .bool).bind fun r hr ↦ ?_
  refine enlarges_breakable (fun block hblock ↦ ?_) (enlarges_pure hr)
  have hcopy {x : Var} (hx : frame.Sees n x) :
      Tame frame n b ({ op := .copy, dst := [r], args := [x] } : Instr) :=
    tame_operation rfl nofun rfl (by simpa using hr) (by simpa using hx)
  refine enlarges_operand h e.x fun x hx ↦ ?_
  refine Enlarges.bind (enlarges_emit (hcopy hx)) fun _ _ ↦ ?_
  have hright (test : Var) (htest : frame.Sees n test) :
      Enlarges frame n b (do
        emit { op := .exitIf, args := [test], target := block }
        openBasic
        let y ← first (← rvalue sub e.y)
        emit { op := .copy, dst := [r], args := [y] }) fun _ ↦ True := by
    refine Enlarges.bind (enlarges_emit ⟨⟨fun _ ↦ ⟨rfl, hblock⟩, rfl, by simp,
      by simpa using htest⟩, nofun⟩) fun _ _ ↦ ?_
    refine enlarges_openBasic.bind fun _ _ ↦ ?_
    exact enlarges_operand h e.y fun y hy ↦ enlarges_emit (hcopy hy)
  dsimp only
  split
  · refine (quiet_primOf x).enlarges.bind fun p _ ↦ ?_
    have hargs : ∀ v ∈ [x], frame.Sees n v := by simpa using hx
    refine Enlarges.bind (enlarges_operation (by rfl) (by nofun) _ _ hargs) fun test htest ↦ ?_
    exact hright test (Frame.sees_of_le htest)
  · exact hright x hx

theorem isControl_binaryOpcode? {o : Operator} {op : Ir.Opcode} (h : binaryOpcode? o = some op) :
    ({ op := op } : Instr).isControl = false ∧ op ≠ .store := by
  unfold binaryOpcode? at h
  split at h <;> cases h <;> exact ⟨rfl, nofun⟩

theorem enlarges_lowerBinary (h : SubEnlarges sub) (e : Expr) (t : ConcreteType) :
    Enlarges frame n b (lowerBinary sub e t) fun v ↦ n ≤ v := by
  unfold lowerBinary
  split
  · exact enlarges_lowerLogical h e
  · split
    · exact enlarges_internalHere _
    · rename_i op hop
      obtain ⟨hcontrol, hstore⟩ := isControl_binaryOpcode? hop
      refine enlarges_operand h e.x fun x hx ↦ ?_
      refine enlarges_operand h e.y fun y hy ↦ ?_
      refine (quiet_primOf x).enlarges.bind fun p _ ↦ ?_
      have hresult : Enlarges frame n b (do
            let result ← expect (← ofLayout t.slots).head?
            operation op p result [x, y]) fun v ↦ n ≤ v := by
        refine (quiet_ofLayout t.slots).enlarges.bind fun slots _ ↦ ?_
        refine (quiet_expect slots.head?).enlarges.bind fun result _ ↦ ?_
        exact enlarges_operation hcontrol hstore p result (by simpa using ⟨hx, hy⟩)
      dsimp only
      split
      · exact (quiet_report _).enlarges.bind fun _ _ ↦ hresult
      · exact hresult

theorem enlarges_lowerUnary (h : SubEnlarges sub) (e : Expr) (result : Prim) :
    Enlarges frame n b (lowerUnary sub e result) fun v ↦ n ≤ v := by
  refine enlarges_operand h e.x fun x hx ↦ ?_
  refine (quiet_primOf x).enlarges.bind fun p _ ↦ ?_
  split
  · split
    · exact enlarges_operation (by rfl) (by nofun) p result (by simpa using hx)
    · refine (enlarges_constant p 0).bind fun base hbase ↦ ?_
      exact enlarges_operation (by rfl) (by nofun) p result
        (by simpa using ⟨Frame.sees_of_le hbase, hx⟩)
  · exact enlarges_operation (by rfl) (by nofun) p result (by simpa using hx)
  · refine (enlarges_constant p (-1)).bind fun ones hones ↦ ?_
    exact enlarges_operation (by rfl) (by nofun) p result
      (by simpa using ⟨hx, Frame.sees_of_le hones⟩)
  · exact enlarges_internalHere _

theorem enlarges_lowerConvert (h : SubEnlarges sub) (e : Expr) (t : ConcreteType) :
    Enlarges frame n b (lowerConvert sub e t) fun vs ↦ ∀ v ∈ vs, n ≤ v := by
  refine (enlarges_rvalue h e.x).bind fun src hsrc ↦ ?_
  refine (quiet_ofLayout t.slots).enlarges.bind fun target _ ↦ ?_
  dsimp only
  split
  · exact enlarges_internalHere_bind _
  · refine enlarges_mapM fun q hq ↦ ?_
    have hv := hsrc q.1 (List.of_mem_zip hq).1
    refine (quiet_primOf q.1).enlarges.bind fun source _ ↦ ?_
    refine (enlarges_newVar q.2).bind fun w hw ↦ ?_
    split
    · exact Enlarges.bind (enlarges_emit (tame_operation rfl nofun rfl (by simpa using hw)
        (by simpa using hv))) fun _ _ ↦ enlarges_pure hw
    · exact Enlarges.bind (enlarges_emit (tame_operation rfl nofun rfl (by simpa using hw)
        (by simpa using hv))) fun _ _ ↦ enlarges_pure hw

/-! ## Strings and aggregates -/

theorem enlarges_lowerString (id : ExprId) (e : Expr) (t : ConcreteType) :
    Enlarges frame n b (lowerString id e t) fun vs ↦ ∀ v ∈ vs, n ≤ v := by
  refine (quiet_checkLiteral id e).enlarges.bind fun _ _ ↦ ?_
  refine (quiet_dataSegment e.str.bytes).enlarges.bind fun segment _ ↦ ?_
  refine (quiet_ofLayout t.slots).enlarges.bind fun slots _ ↦ ?_
  split
  · exact (enlarges_address .data segment).bind fun v hv ↦ enlarges_pure (by simpa using hv)
  · rename_i p
    refine (enlarges_address .data segment).bind fun base hbase ↦ ?_
    exact (enlarges_constant p _).bind fun size hsize ↦
      enlarges_pure (by simpa using ⟨hbase, hsize⟩)
  · exact (quiet_report _).enlarges.bind fun _ _ ↦ enlarges_newVars slots

theorem enlarges_members (h : SubEnlarges sub) {pairs : List (ExprId × Member)}
    {place : Member → M Value} (hplace : ∀ m, Enlarges frame n b (place m) (Value.Own n)) :
    Enlarges frame n b
      (forIn pairs PUnit.unit fun (arg, m) _ => do
        let dst ← place m
        discard (sub arg (some dst))
        pure (.yield PUnit.unit)) fun _ ↦ True := by
  refine enlarges_forIn fun q _ ↦ ?_
  refine (hplace q.2).bind fun dst hdst ↦ ?_
  exact (h.into q.1 hdst).bind fun _ _ ↦ enlarges_pure rfl

theorem enlarges_lowerConstruct (h : SubEnlarges sub) (e : Expr) (type : Handle)
    {dst : Option Value} (hdst : OwnIfAny n dst) :
    Enlarges frame n b (lowerConstruct sub e type dst) (Given frame n names dst) := by
  refine (quiet_typeOf type).enlarges.bind fun t _ ↦ ?_
  dsimp only
  split
  · refine (quiet_onStore _).enlarges.bind fun name _ ↦ ?_
    refine (enlarges_arguments h e.args).bind fun args hargs ↦ ?_
    refine (enlarges_callFunction name hargs type).bind fun vars hvars ↦ ?_
    exact enlarges_deliver hvars type hdst
  · split
    · exact enlarges_internalHere_bind _
    · split
      · have hfill (target : Value) (htarget : target.Own n) :
            Enlarges frame n b (do
              for (arg, m) in e.args.zip t.members do
                let place ← selectMember target m.name
                discard (sub arg (some place))
              return target) (Given frame n names dst) := by
          refine (enlarges_members h fun m ↦ enlarges_selectMember (fun _ hx ↦ hx)
            (fun _ ↦ Frame.sees_of_le) htarget m.name).bind fun _ _ ↦ ?_
          exact enlarges_pure ⟨htarget.seen, fun _ _ ↦ htarget.made⟩
        cases dst with
        | some d => exact hfill d (hdst d rfl)
        | none =>
          refine (quiet_ofLayout t.slots).enlarges.bind fun slots _ ↦ ?_
          exact (enlarges_newVars slots).bind fun vars hvars ↦ hfill (.direct type vars) hvars
      · refine (enlarges_allocate t.size).bind fun pointer hpointer ↦ ?_
        refine (enlarges_members h fun m ↦ enlarges_instanceMember hpointer m).bind fun _ _ ↦ ?_
        exact enlarges_deliver (by simpa using hpointer) type hdst
      · exact enlarges_internalHere _

/-! ## Every expression -/

theorem enlarges_localVars (id : LocalId) :
    Enlarges frame n b (localVars id) fun vs ↦ ∀ v ∈ vs, frame.Sees n v := by
  refine enlarges_read (enlarges_expect fun row hrow v hv ↦ ?_)
  exact .inl (.inr ⟨row, Array.mem_of_getElem? hrow, hv⟩)

theorem sees_self : ∀ v ∈ frame.self, frame.Sees n v :=
  fun _ hv ↦ .inl (.inl hv)

theorem enlarges_delivered {x : M Var} (hx : Enlarges frame n b x fun v ↦ n ≤ v) (type : Handle)
    {dst : Option Value} (hdst : OwnIfAny n dst) :
    Enlarges frame n b (do deliver [← x] type dst) (Given frame n names dst) :=
  hx.bind fun _ hv ↦ enlarges_deliver (by simpa using hv) type hdst

theorem enlarges_deliveredAll {x : M (List Var)}
    (hx : Enlarges frame n b x fun vs ↦ ∀ v ∈ vs, n ≤ v) (type : Handle) {dst : Option Value}
    (hdst : OwnIfAny n dst) :
    Enlarges frame n b (do deliver (← x) type dst) (Given frame n names dst) :=
  hx.bind fun _ hvs ↦ enlarges_deliver hvs type hdst

/-- Whether an expression names a value that is there already, or a part of one. -/
def IsName (e : Expr) : Prop :=
  e.kind = .loc ∨ e.kind = .self ∨ e.kind = .member

/-- Whatever form an expression has, it gives a value that is seen, and one that was made unless it
names one. -/
theorem enlarges_exprStep (h : SubEnlarges sub) (id : ExprId) (e : Expr) {dst : Option Value}
    (hdst : OwnIfAny n dst) :
    Enlarges frame n b (exprStep sub id e dst) (Given frame n (IsName e) dst) := by
  refine (quiet_resolve e.type).enlarges.bind fun type _ ↦ ?_
  refine (quiet_typeOf type).enlarges.bind fun t _ ↦ ?_
  split
  case h_1 =>
    refine (quiet_ofLayout t.slots).enlarges.bind fun slots _ ↦ ?_
    refine (quiet_expect slots.head?).enlarges.bind fun p _ ↦ ?_
    exact enlarges_delivered (enlarges_constant p e.int) type hdst
  case h_2 =>
    refine (quiet_ofLayout t.slots).enlarges.bind fun slots _ ↦ ?_
    refine (quiet_expect slots.head?).enlarges.bind fun p _ ↦ ?_
    refine (enlarges_newVar p).bind fun v hv ↦ ?_
    refine Enlarges.bind (enlarges_emit (tame_operation rfl nofun rfl (by simpa using hv)
      (by simp))) fun _ _ ↦ ?_
    exact enlarges_deliver (by simpa using hv) type hdst
  case h_3 => exact enlarges_delivered (enlarges_constant .bool _) type hdst
  case h_4 => exact enlarges_delivered (enlarges_constant .pointer 0) type hdst
  case h_5 => exact enlarges_deliveredAll (enlarges_lowerString id e t) type hdst
  case h_6 hkind =>
    exact (enlarges_localVars e.loc).bind fun vars hvars ↦
      enlarges_deliverValue (v := .direct type vars) hvars (absurd (.inl hkind)) hdst
  case h_7 hkind =>
    exact enlarges_read (enlarges_deliverValue (v := .direct frame.selfType frame.self)
      sees_self (absurd (.inr (.inl hkind))) hdst)
  case h_8 =>
    exact (quiet_globalIndex e.decl).enlarges.bind fun index _ ↦
      enlarges_deliverValue (v := .global type index 0) trivial (fun _ ↦ trivial) hdst
  case h_9 =>
    refine (enlarges_newVar .pointer).bind fun v hv ↦ ?_
    refine (quiet_calleeName e).enlarges.bind fun name _ ↦ ?_
    have hname : Quiet (modify fun s => { s with unit := (s.unit.internTable name).2 } : M Unit) :=
      quiet_modify fun s ↦ aside_unit s rfl
    refine hname.enlarges.bind fun _ _ ↦ ?_
    refine Enlarges.bind (enlarges_emit (tame_operation rfl nofun rfl (by simpa using hv)
      (by simp))) fun _ _ ↦ ?_
    exact enlarges_deliver (by simpa using hv) type hdst
  case h_10 => exact enlarges_deliveredAll (enlarges_lowerCall h e type) type hdst
  case h_11 => exact enlarges_deliveredAll (enlarges_lowerCallValue h e type) type hdst
  case h_12 => exact enlarges_deliveredAll (enlarges_lowerMethodCall h e type) type hdst
  case h_13 => exact enlarges_deliveredAll (enlarges_lowerOperator h e type) type hdst
  case h_14 hkind =>
    refine (h.apply e.x).bind fun whole hwhole ↦ ?_
    refine (enlarges_selectMember (fun _ ↦ Frame.sees_of_le) (fun _ hx ↦ hx) hwhole e.name).bind
      fun part hpart ↦ ?_
    exact enlarges_deliverValue hpart (absurd (.inr (.inr hkind))) hdst
  case h_15 => exact enlarges_delivered (enlarges_lowerBinary h e t) type hdst
  case h_16 =>
    refine (quiet_ofLayout t.slots).enlarges.bind fun slots _ ↦ ?_
    refine (quiet_expect slots.head?).enlarges.bind fun result _ ↦ ?_
    exact enlarges_delivered (enlarges_lowerUnary h e result) type hdst
  case h_17 => exact enlarges_deliveredAll (enlarges_lowerConvert h e t) type hdst
  case h_18 => exact enlarges_lowerConstruct h e type hdst
  case h_19 =>
    refine (quiet_typeOf t.elem).enlarges.bind fun element _ ↦ ?_
    refine (quiet_ofLayout element.valueSize).enlarges.bind fun size _ ↦ ?_
    refine (enlarges_allocate size).bind fun pointer hpointer ↦ ?_
    have hresult : Enlarges frame n b (deliver [pointer] type dst) (Given frame n (IsName e) dst) :=
      enlarges_deliver (by simpa using hpointer) type hdst
    dsimp only
    split
    · exact (h.into e.x (d := .relative t.elem pointer 0) hpointer).bind fun _ _ ↦ hresult
    · exact hresult
  case h_20 =>
    exact enlarges_operand h e.x fun base hbase ↦
      enlarges_deliverValue (v := .relative type base 0) hbase (fun _ ↦ trivial) hdst
  case h_21 => exact enlarges_internalHere _

theorem subEnlarges_lowerWithin (depth : Nat) : SubEnlarges (lowerWithin depth) := by
  induction depth with
  | zero =>
    intro frame n b id dst _
    exact enlarges_throw
  | succ depth ih =>
    intro frame n b id dst hdst
    refine quiet_program.enlarges.bind fun p _ ↦ ?_
    cases p.expr? id with
    | none => exact enlarges_internalHere _
    | some e => exact (enlarges_exprStep ih id e hdst).imp fun _ hv ↦ hv.1

/-- Lowering an expression adds tame code only. -/
theorem subEnlarges_lowerExpr : SubEnlarges lowerExpr := by
  intro frame n b id dst hdst
  exact quiet_program.enlarges.bind fun p _ ↦ subEnlarges_lowerWithin _ frame n b id dst hdst

/-! ## Targets of assignments -/

theorem enlarges_targetWithin (depth : Nat) (id : ExprId) :
    Enlarges frame n b (targetWithin depth id) (Value.Seen frame n) := by
  induction depth generalizing id with
  | zero => exact enlarges_throw
  | succ depth ih =>
    refine quiet_program.enlarges.bind fun p _ ↦ ?_
    refine (quiet_expect (p.expr? id)).enlarges.bind fun e _ ↦ ?_
    refine (quiet_resolve e.type).enlarges.bind fun type _ ↦ ?_
    split
    · exact (enlarges_localVars e.loc).bind fun vars hvars ↦ enlarges_pure hvars
    · exact enlarges_read (enlarges_pure sees_self)
    · exact (quiet_globalIndex e.decl).enlarges.bind fun _ _ ↦ enlarges_pure trivial
    · exact enlarges_operand subEnlarges_lowerExpr e.x fun base hbase ↦ enlarges_pure hbase
    · refine (quiet_exprType e.x).enlarges.bind fun owner _ ↦ ?_
      refine (quiet_typeOf owner).enlarges.bind fun t _ ↦ ?_
      have hselect {v : Value} (hv : v.Seen frame n) :
          Enlarges frame n b (selectMember v e.name) (Value.Seen frame n) :=
        enlarges_selectMember (fun _ ↦ Frame.sees_of_le) (fun _ hx ↦ hx) hv e.name
      split
      · exact (subEnlarges_lowerExpr.apply e.x).bind fun _ ↦ hselect
      · exact (ih e.x).bind fun _ ↦ hselect
    · exact enlarges_internalHere _

/-- Locating the target of an assignment adds tame code only. -/
theorem enlarges_assignTarget (id : ExprId) :
    Enlarges frame n b (assignTarget id) (Value.Seen frame n) :=
  quiet_program.enlarges.bind fun _ _ ↦ enlarges_targetWithin _ id

end Lowering

end WasmBackend
