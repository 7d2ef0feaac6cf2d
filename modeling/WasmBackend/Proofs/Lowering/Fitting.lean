import WasmBackend.Lowering.Stmt
import WasmBackend.Proofs.Lowering.Places

/-!
# Values that fit

Every value in memory that lowering makes starts at its pointer or lies below the end of memory:
pointees and globals start at their pointer, and a member lies in what it is a member of.  `Yields`
says of a step that it keeps the store steady, and what it gives is told the store by then; since
stores only gain, a value that fits goes on fitting.
-/

namespace WasmBackend

open Ir (Instr Var)
open Stage (Ensures Meets)

namespace TypeStore

variable {α : Type} {s : TypeStore}

/-! ## What a steady store gains -/

theorem Makes.gains {x : M Handle} {err : Failure → Prop} (hx : Makes x s err)
    (hadv : Ensures x s fun _ s' ↦ s.Advances s') : Ensures x s fun _ s' ↦ s.Gains s' :=
  (hx.2.ensures.and hadv).imp fun _ _ h ↦ ⟨h.1.1, h.2.faithful⟩

theorem gains_resolve (hs : s.Standard) (t : TypeId) {scope : List Handle}
    (hscope : ∀ g ∈ scope, g < s.size) : Ensures (resolve t scope) s fun _ s' ↦ s.Gains s' :=
  Makes.gains (makes_resolve hs t hscope) ((ensures_resolve t scope).imp fun _ _ h ↦ h.1)

theorem gains_prim (hs : s.Standard) (p : Prim) : Ensures (prim p) s fun _ s' ↦ s.Gains s' :=
  Makes.gains (makes_prim hs p) ((ensures_prim p).imp fun _ _ h ↦ h.1)

/-- Each of several calls gains. -/
theorem gains_mapM {β : Type} {f : α → M β} {l : List α} (hs : s.Proper)
    (hf : ∀ a ∈ l, ∀ s' : TypeStore, s'.Proper → s.Gains s' →
      Ensures (f a) s' fun _ s'' ↦ s'.Gains s'') :
    Ensures (l.mapM f) s fun _ s' ↦ s.Gains s' := by
  induction l generalizing s with
  | nil => exact .refl s
  | cons a l ih =>
    rw [List.mapM_cons]
    refine Stage.meets_bind.2 ((hf a List.mem_cons_self s hs (.refl s)).imp fun b s₁ h₁ ↦ ?_)
    refine Stage.meets_bind.2 ((ih (h₁.lays.proper hs) fun c hc s' hs' h' ↦
      hf c (List.mem_cons_of_mem a hc) s' hs' (h₁.trans h')).imp fun bs s₂ h₂ ↦ ?_)
    exact h₁.trans h₂

theorem gains_resolveAll (hs : s.Proper) (ts : List TypeId) {scope : List Handle}
    (hscope : ∀ g ∈ scope, g < s.size) :
    Ensures (resolveAll ts scope) s fun _ s' ↦ s.Gains s' :=
  gains_mapM hs fun t _ _ hs' h' ↦
    gains_resolve hs'.toStandard t fun g hg ↦ h'.toKeeps.lt_size (hscope g hg)

theorem gains_getType (hs : s.Standard) (h : Handle) :
    Ensures (getType h) s fun _ s' ↦ s.Gains s' :=
  (ensures_getType hs h).imp fun _ _ h ↦ h.1

theorem gains_functionName (hs : s.Proper) (decl : DeclId) (args : List Handle) :
    Ensures (functionName decl args) s fun _ s' ↦ s.Gains s' := by
  unfold functionName
  rw [Ensures, Stage.meets_bind, Stage.meets_get]
  cases s.program.decl? decl with
  | none => trivial
  | some d =>
    show Ensures (mangleWith getType d.name args) s _
    unfold mangleWith
    split
    · exact .refl s
    · refine Stage.meets_bind.2 ((gains_mapM hs fun g _ s' hs' _ ↦ ?_).imp fun _ _ h ↦ h)
      exact Stage.meets_bind.2 ((gains_getType hs'.toStandard g).imp fun _ _ h ↦ h)

theorem gains_memberName (hs : s.Standard) (owner : Handle) (decl : DeclId) :
    Ensures (memberName owner decl) s fun _ s' ↦ s.Gains s' := by
  unfold memberName
  rw [Ensures, Stage.meets_bind, Stage.meets_get]
  cases s.program.decl? decl with
  | none => trivial
  | some d =>
    have hname : Ensures (nameOf owner) s fun _ s' ↦ s.Gains s' :=
      Stage.meets_bind.2 ((gains_getType hs owner).imp fun _ _ h ↦ h)
    simp only [Stage.some!, pure_bind]
    refine Stage.meets_bind.2 (hname.imp fun base s₁ hg ↦ ?_)
    cases d.function with
    | none => trivial
    | some f =>
      simp only [pure_bind]
      split <;> exact hg

end TypeStore

/-- What the generic parameters stand for has been made. -/
def Frame.Scoped (frame : Frame) (store : TypeStore) : Prop :=
  ∀ g ∈ frame.scope, g < store.size

namespace Lowering

variable {α β : Type} {frame : Frame} {store : TypeStore} {sub : Sub}

/-- Wherever the store is steady and has gained since `store`, the step lets it gain more, and what
it gives satisfies `post`, which is told the store by then. -/
def Yields (frame : Frame) (store : TypeStore) (x : M α) (post : α → TypeStore → Prop) : Prop :=
  ∀ s : Lowering, store.Gains s.store → s.store.Steady → frame.Scoped s.store →
    Ensures (x frame) s fun a s' ↦ s.store.Gains s'.store ∧ post a s'.store

/-- The step keeps the store steady. -/
abbrev Grows (frame : Frame) (store : TypeStore) (x : M α) : Prop :=
  Yields frame store x fun _ _ ↦ True

/-! ## One rule for every way to put steps together -/

section

variable {x : M α} {post : α → TypeStore → Prop}

theorem Yields.bind {f : α → M β} {post' : β → TypeStore → Prop} (hx : Yields frame store x post)
    (hf : ∀ a store', store.Gains store' → post a store' → Yields frame store' (f a) post') :
    Yields frame store (x >>= f) post' := by
  refine fun s hg hs hscope ↦ meets_bind.2 ((hx s hg hs hscope).imp ?_)
  rintro a s₁ ⟨hg₁, ha⟩
  have hscope₁ : frame.Scoped s₁.store := fun g hg ↦ hg₁.toKeeps.lt_size (hscope g hg)
  refine (hf a s₁.store (hg.trans hg₁) ha s₁ (.refl _) (hg₁.steady hs) hscope₁).imp ?_
  rintro b s₂ ⟨hg₂, hb⟩
  exact ⟨hg₁.trans hg₂, hb⟩

theorem Yields.andThen {f : α → M β} {post' : β → TypeStore → Prop}
    (hx : Yields frame store x post) (hf : ∀ a store', Yields frame store' (f a) post') :
    Yields frame store (x >>= f) post' :=
  hx.bind fun a store' _ _ ↦ hf a store'

theorem grows_pure (a : α) : Grows frame store (pure a) :=
  fun _ _ _ _ ↦ ⟨.refl _, trivial⟩

theorem Yields.imp {post' : α → TypeStore → Prop} (hx : Yields frame store x post)
    (hpost : ∀ a store', store.Gains store' → post a store' → post' a store') :
    Yields frame store x post' :=
  fun s hg hs hscope ↦ (hx s hg hs hscope).imp fun a s' h ↦
    ⟨h.1, hpost a s'.store (hg.trans h.1) h.2⟩

theorem yields_pure {a : α} (h : ∀ store', store.Gains store' → post a store') :
    Yields frame store (pure a) post :=
  fun s hg _ _ ↦ ⟨.refl _, h s.store hg⟩

theorem yields_throw {e : LoweringFault} : Yields frame store (throw e : M α) post :=
  fun _ _ _ _ ↦ trivial

theorem yields_get {f : Lowering → M β} {post : β → TypeStore → Prop}
    (h : ∀ s, Yields frame store (f s) post) : Yields frame store (get >>= f) post :=
  fun s ↦ h s s

theorem yields_read {f : Frame → M β} {post : β → TypeStore → Prop}
    (h : Yields frame store (f frame) post) : Yields frame store (read >>= f) post :=
  h

/-- A change of something other than the store. -/
theorem grows_modify {g : Lowering → Lowering} (hg : ∀ s, (g s).store = s.store) :
    Grows frame store (modify g) := by
  intro s _ _ _
  exact ⟨(hg s).symm ▸ .refl _, trivial⟩

theorem grows_discard (hx : Yields frame store x post) :
    Grows frame store (discard x) := by
  show Yields frame store (Functor.map (fun _ ↦ PUnit.unit) x) _
  rw [map_eq_pure_bind]
  exact hx.andThen fun _ _ ↦ grows_pure _

theorem grows_forIn {l : List α} {f : α → PUnit → M (ForInStep PUnit)}
    (h : ∀ a ∈ l, ∀ store', store.Gains store' →
      Yields frame store' (f a ⟨⟩) fun r _ ↦ r = .yield ⟨⟩) :
    Grows frame store (forIn l PUnit.unit f) := by
  induction l generalizing store with
  | nil => exact grows_pure _
  | cons a l ih =>
    rw [List.forIn_cons]
    refine (h a List.mem_cons_self store (.refl store)).bind ?_
    rintro _ store₁ hg rfl
    exact ih fun b hb store₂ hg₂ ↦ h b (List.mem_cons_of_mem a hb) store₂ (hg.trans hg₂)

theorem grows_each {l : List α} {f : α → M β}
    (h : ∀ a ∈ l, ∀ store', Grows frame store' (f a)) :
    Grows frame store (l.mapM f) := by
  induction l generalizing store with
  | nil => exact grows_pure _
  | cons a l ih =>
    rw [List.mapM_cons]
    refine (h a List.mem_cons_self store).andThen fun _ _ ↦ ?_
    refine (ih fun b hb ↦ h b (List.mem_cons_of_mem a hb)).andThen fun _ _ ↦ ?_
    exact grows_pure _

end

/-! ## Steps without values -/

theorem yields_internal (message : Text) {post : α → TypeStore → Prop} :
    Yields frame store (internal message) post :=
  yields_throw

theorem yields_internalHere (message : Text) {post : α → TypeStore → Prop} :
    Yields frame store (internalHere message) post :=
  yields_read yields_throw

/-- Nothing behind a broken invariant of the function happens. -/
theorem yields_internalHere_bind (message : Text) {f : α → M β} {post : β → TypeStore → Prop} :
    Yields frame store (internalHere message >>= f) post :=
  fun _ _ _ _ ↦ trivial

theorem yields_expect (x : Option α) : Yields frame store (expect x) fun a _ ↦ x = some a := by
  cases x with
  | some a => exact yields_pure fun _ _ ↦ rfl
  | none => exact yields_throw

theorem yields_ofLayout (x : Except Failure α) :
    Yields frame store (ofLayout x) fun a _ ↦ x = .ok a := by
  cases x with
  | ok a => exact yields_pure fun _ _ ↦ rfl
  | error e => exact yields_throw

/-- A computation over the store that gains. -/
theorem yields_onStore {x : TypeStore.M α} {post : α → TypeStore → Prop}
    (hx : ∀ st : TypeStore, st.Steady → frame.Scoped st →
      Ensures x st fun a st' ↦ st.Gains st' ∧ post a st') :
    Yields frame store (onStore x) post := by
  intro s _ hs hscope
  show Meets (ExceptT.adapt _ _) s _ _
  rw [Stage.meets_adapt, Stage.meets_zoom]
  exact hx s.store hs hscope

theorem grows_call {x : TypeStore.M α} (hx : ∀ st : TypeStore, st.Steady → frame.Scoped st →
    Ensures x st fun _ st' ↦ st.Gains st') : Grows frame store (onStore x) :=
  yields_onStore fun st hs hscope ↦ (hx st hs hscope).imp fun _ _ h ↦ ⟨h, trivial⟩

theorem yields_typeOf (h : Handle) :
    Yields frame store (typeOf h) fun t st ↦ st.type? h = some t :=
  yields_onStore fun _ hs _ ↦ TypeStore.ensures_getType hs.proper.toStandard h

theorem grows_resolve (t : TypeId) : Grows frame store (resolve t) :=
  yields_read (grows_call fun _ hs hscope ↦
    TypeStore.gains_resolve hs.proper.toStandard t hscope)

theorem grows_slotsOf (h : Handle) : Grows frame store (slotsOf h) :=
  (yields_typeOf h).andThen fun _ _ ↦ (yields_ofLayout _).imp fun _ _ _ _ ↦ trivial

theorem grows_program : Grows frame store program :=
  yields_get fun _ ↦ grows_pure _

theorem grows_first (vs : List Var) : Grows frame store (first vs) :=
  (yields_expect _).imp fun _ _ _ _ ↦ trivial

theorem grows_primOf (v : Var) : Grows frame store (primOf v) := by
  refine yields_get fun s ↦ ?_
  cases s.vars[v]? with
  | some p => exact grows_pure _
  | none => exact yields_internalHere _

theorem grows_report (d : Diagnostic) : Grows frame store (report d) :=
  grows_modify fun _ ↦ by rfl

theorem grows_emit (i : Instr) : Grows frame store (emit i) :=
  grows_modify fun _ ↦ by rfl

theorem grows_newVar (p : Prim) : Grows frame store (newVar p) :=
  fun _ _ _ _ ↦ ⟨.refl _, trivial⟩

theorem grows_newVars (ps : List Prim) : Grows frame store (newVars ps) :=
  grows_each fun p _ _ ↦ grows_newVar p

theorem grows_newBlock (kind : Ir.BlockKind) :
    Grows frame store (newBlock kind) :=
  fun _ _ _ _ ↦ ⟨.refl _, trivial⟩

theorem grows_openBasic : Grows frame store openBasic :=
  fun _ _ _ _ ↦ ⟨.refl _, trivial⟩

theorem grows_nested {x : M Unit} (hx : ∀ st, Grows frame st x) :
    Grows frame store (nested x) := by
  refine (grows_modify fun _ ↦ by rfl).andThen fun _ _ ↦ ?_
  refine grows_openBasic.andThen fun _ st ↦ (hx st).andThen fun _ _ ↦ ?_
  exact fun _ _ _ _ ↦ ⟨.refl _, trivial⟩

theorem grows_constInto (v : Var) (p : Prim) (k : Int64) :
    Grows frame store (constInto v p k) := by
  unfold constInto
  split
  · exact grows_emit _
  · exact grows_emit _

theorem grows_constant (p : Prim) (k : Int64) :
    Grows frame store (constant p k) :=
  (grows_newVar p).andThen fun v _ ↦ (grows_constInto v p k).andThen fun _ _ ↦
    grows_pure _

theorem grows_address (zone : Ir.Zone) (index : Nat) :
    Grows frame store (address zone index) :=
  (grows_newVar .pointer).andThen fun _ _ ↦ (grows_emit _).andThen fun _ _ ↦
    grows_pure _

theorem grows_operation (op : Ir.Opcode) (storage result : Prim) (args : List Var) :
    Grows frame store (operation op storage result args) :=
  (grows_newVar result).andThen fun _ _ ↦ (grows_emit _).andThen fun _ _ ↦
    grows_pure _

/-! ## Values -/

/-- What is gathered from a steady store. -/
theorem yields_of_gathers {x : M α} {post : α → TypeStore → Prop}
    (hx : ∀ s : Lowering, store.Gains s.store →
      Gathers frame s x fun a _ s' ↦ post a s'.store) : Yields frame store x post := by
  intro s hg hs _
  refine Meets.imp (hx s hg hs) ?_
  rintro a s' ⟨_, -, hg', ha⟩
  exact ⟨hg', ha⟩

theorem fits_gains {v : Value} {store' : TypeStore} (hv : v.Fits store)
    (hg : store.Gains store') : v.Fits store' :=
  hv.mono hg.lays.toExtends

theorem grows_readValue {v : Value} (hv : v.Fits store) :
    Grows frame store (readValue v) :=
  yields_of_gathers fun _ hg ↦ gathers_readValue (fits_gains hv hg)

theorem grows_writeValue {v : Value} (hv : v.Fits store) (vars : List Var) :
    Grows frame store (writeValue v vars) := by
  cases hplace : v.start? with
  | some place =>
    exact yields_of_gathers fun _ hg ↦
      (gathers_writePlace (fits_gains hv hg) hplace vars).imp fun _ _ _ _ ↦ trivial
  | none =>
    cases v with
    | direct h slots =>
      unfold writeValue
      dsimp only
      split
      · exact yields_internalHere_bind _
      · refine Yields.bind (grows_forIn fun p _ st _ ↦ ?_) fun _ _ _ _ ↦ grows_pure _
        split
        · exact (grows_emit _).andThen fun _ _ ↦ yields_pure fun _ _ ↦ rfl
        · exact yields_pure fun _ _ ↦ rfl
    | relative h base offset | global h index offset => cases hplace

theorem yields_selectMember {v : Value} (hv : v.Fits store) (name : Text) :
    Yields frame store (selectMember v name) fun w st ↦ w.Fits st :=
  yields_of_gathers fun _ hg ↦
    (gathers_selectMember (fits_gains hv hg) name).imp fun _ _ _ h ↦ h.1

/-- A field of an instance lies in it. -/
theorem yields_instanceMember (pointer : Var) {h : Handle} {t : ConcreteType}
    (ht : store.type? h = some t) (hagg : t.kind.isAggregate) {m : Member} (hm : m ∈ t.members) :
    Yields frame store (instanceMember pointer m) fun w st ↦ w.Fits st := by
  refine yields_of_gathers fun s hg ↦ (gathers_offset32 m.offset).bind ?_
  rintro _ _ _ hs - ⟨rfl, rfl, rfl⟩
  exact gathers_pure (hs.fits_instanceMember (hg.type _ _ ht) hagg hm pointer)

/-- A place that may be missing fits. -/
def FitsIfAny (store : TypeStore) (dst : Option Value) : Prop :=
  ∀ d ∈ dst, d.Fits store

theorem FitsIfAny.gains {store' : TypeStore} {dst : Option Value} (h : FitsIfAny store dst)
    (hg : store.Gains store') : FitsIfAny store' dst :=
  fun d hd ↦ fits_gains (h d hd) hg

theorem yields_deliver (vars : List Var) (h : Handle) {dst : Option Value}
    (hdst : FitsIfAny store dst) :
    Yields frame store (deliver vars h dst) fun w st ↦ w.Fits st := by
  cases dst with
  | none => exact yields_pure fun _ _ ↦ Value.fits_direct vars
  | some d =>
    have hd := hdst d rfl
    exact (grows_writeValue hd vars).bind fun _ _ hg _ ↦
      yields_pure fun _ hg' ↦ fits_gains hd (hg.trans hg')

theorem yields_deliverValue {v : Value} (hv : v.Fits store) {dst : Option Value}
    (hdst : FitsIfAny store dst) :
    Yields frame store (deliverValue v dst) fun w st ↦ w.Fits st := by
  cases dst with
  | none => exact yields_pure fun _ hg ↦ fits_gains hv hg
  | some d =>
    have hd := hdst d rfl
    refine (grows_readValue hv).bind fun vars st hg _ ↦ ?_
    exact (grows_writeValue (fits_gains hd hg) vars).bind fun _ _ hg' _ ↦
      yields_pure fun _ hg'' ↦ fits_gains hd ((hg.trans hg').trans hg'')

/-! ## Calls -/

/-- Lowering a subexpression gives a value that fits, if the place it is wanted in does. -/
def SubFits (sub : Sub) : Prop :=
  ∀ (frame : Frame) (store : TypeStore) (id : ExprId) (dst : Option Value), FitsIfAny store dst →
    Yields frame store (sub id dst) fun w st ↦ w.Fits st

theorem SubFits.apply (h : SubFits sub) (id : ExprId) :
    Yields frame store (sub id none) fun w st ↦ w.Fits st :=
  h frame store id none fun _ hd ↦ absurd hd (by simp)

theorem SubFits.into (h : SubFits sub) (id : ExprId) {d : Value} (hd : d.Fits store) :
    Grows frame store (discard (sub id (some d))) := by
  refine grows_discard (h frame store id (some d) fun d' hd' ↦ ?_)
  rw [← Option.some.inj hd']
  exact hd

theorem grows_rvalue (h : SubFits sub) (id : ExprId) : Grows frame store (rvalue sub id) :=
  (h.apply id).bind fun _ _ _ hv ↦ grows_readValue hv

/-- The first variable of a subexpression. -/
theorem yields_operand (h : SubFits sub) (id : ExprId) {f : Var → M β}
    {post : β → TypeStore → Prop} (hf : ∀ v st, Yields frame st (f v) post) :
    Yields frame store (do f (← first (← rvalue sub id))) post :=
  (grows_rvalue h id).andThen fun vs _ ↦ (grows_first vs).andThen hf

theorem grows_arguments (h : SubFits sub) (ids : List ExprId) :
    Grows frame store (arguments sub ids) :=
  (grows_each fun id _ _ ↦ grows_rvalue h id).andThen fun _ _ ↦ grows_pure _

theorem grows_exprType (id : ExprId) : Grows frame store (exprType id) :=
  grows_program.andThen fun _ _ ↦ (yields_expect _).andThen fun e _ ↦ grows_resolve e.type

theorem grows_signatureOf (params : List Handle) (result : Handle) :
    Grows frame store (signatureOf params result) :=
  (grows_each fun h _ _ ↦ grows_slotsOf h).andThen fun _ _ ↦
    (grows_slotsOf result).andThen fun _ _ ↦ grows_pure _

theorem grows_scratchSlot (position : Nat) (p : Prim) :
    Grows frame store (scratchSlot position p) :=
  fun _ _ _ _ ↦ ⟨.refl _, trivial⟩

theorem grows_emitCall (call : Instr) (result : Handle) :
    Grows frame store (emitCall call result) := by
  refine (grows_slotsOf result).andThen fun slots _ ↦ ?_
  cases slots with
  | nil => exact (grows_emit _).andThen fun _ _ ↦ grows_pure _
  | cons p rest =>
    refine (grows_newVar p).andThen fun v _ ↦ (grows_emit _).andThen fun _ _ ↦ ?_
    refine Yields.andThen (grows_each fun q _ _ ↦ ?_) fun _ _ ↦ grows_pure _
    refine (grows_scratchSlot (q.2 + 1) q.1).andThen fun slot _ ↦ ?_
    refine (grows_address .scratch slot).andThen fun base _ ↦ ?_
    refine (grows_newVar q.1).andThen fun w _ ↦ ?_
    exact (grows_emit _).andThen fun _ _ ↦ grows_pure _

theorem grows_callFunction (callee : Text) (args : List Var) (result : Handle) :
    Grows frame store (callFunction callee args result) :=
  grows_emitCall _ result

theorem grows_allocate (size : Nat) : Grows frame store (allocate size) := by
  refine (grows_constant .pointer _).andThen fun n _ ↦ ?_
  refine (grows_call fun _ hs _ ↦ TypeStore.gains_prim hs.proper.toStandard .pointer).andThen
    fun result _ ↦ ?_
  exact (grows_callFunction allocFunction [n] result).andThen fun vs _ ↦ grows_first vs

theorem grows_calleeName (e : Expr) : Grows frame store (calleeName e) :=
  yields_read ((grows_call fun _ hs hscope ↦
    TypeStore.gains_resolveAll hs.proper e.typeArgs hscope).andThen fun args _ ↦
      grows_call fun _ hs _ ↦ TypeStore.gains_functionName hs.proper e.decl args)

theorem grows_memberName (owner : Handle) (decl : DeclId) :
    Grows frame store (onStore (TypeStore.memberName owner decl)) :=
  grows_call fun _ hs _ ↦ TypeStore.gains_memberName hs.proper.toStandard owner decl

theorem grows_absolute (x : Var) (storage : Prim) (dst : List Var) :
    Grows frame store (absolute x storage dst) := by
  refine (grows_constant storage _).andThen fun shift _ ↦ ?_
  refine (grows_operation .shr _ _ [x, shift]).andThen fun sign _ ↦ ?_
  exact (grows_operation .xor _ _ [x, sign]).andThen fun _ _ ↦ grows_emit _

theorem grows_lowerNative (name : Text) (args : List Var) (result : Handle) :
    Grows frame store (lowerNative name args result) := by
  have hdst : Grows frame store (nativeResult result) := by
    refine (grows_slotsOf result).andThen fun slots _ ↦ ?_
    cases slots with
    | nil => exact grows_pure _
    | cons p rest => exact (grows_newVar p).andThen fun _ _ ↦ grows_pure _
  have hstorage (st : TypeStore) : Grows frame st (nativeStorage args) := by
    cases args with
    | nil => exact grows_pure _
    | cons x rest => exact grows_primOf x
  refine hdst.andThen fun dst st ↦ (hstorage st).andThen fun storage _ ↦ ?_
  dsimp only
  split
  · exact (grows_first args).andThen fun x _ ↦
      (grows_absolute x storage dst).andThen fun _ _ ↦ grows_pure _
  · exact (grows_emit _).andThen fun _ _ ↦ grows_pure _

/-! ## Forms of expressions -/

section

variable (hsub : SubFits sub) (e : Expr) (result : Handle)

include hsub

theorem grows_lowerCall : Grows frame store (lowerCall sub e result) := by
  refine grows_program.andThen fun p _ ↦ ?_
  cases p.decl? e.decl with
  | none => exact yields_internalHere _
  | some d =>
    dsimp only
    split
    · exact yields_internalHere _
    · split
      · exact (grows_arguments hsub e.args).andThen fun args _ ↦ grows_lowerNative _ args result
      · exact (grows_calleeName e).andThen fun name _ ↦
          (grows_arguments hsub e.args).andThen fun args _ ↦ grows_callFunction name args result

theorem grows_lowerCallValue : Grows frame store (lowerCallValue sub e result) := by
  refine yields_operand hsub e.x fun callee _ ↦ (grows_exprType e.x).andThen fun h _ ↦ ?_
  refine (yields_typeOf h).andThen fun t _ ↦ ?_
  dsimp only
  split
  · exact yields_internalHere_bind _
  · exact (grows_signatureOf _ _).andThen fun sig _ ↦
      (grows_arguments hsub e.args).andThen fun args _ ↦ grows_emitCall _ result

theorem grows_lowerMethodCall : Grows frame store (lowerMethodCall sub e result) := by
  refine (grows_exprType e.x).andThen fun owner _ ↦ (yields_typeOf owner).andThen fun t _ ↦ ?_
  cases t.method? e.name with
  | none => exact yields_internal _
  | some decl =>
    refine (grows_rvalue hsub e.x).andThen fun receiver _ ↦ ?_
    refine (grows_arguments hsub e.args).andThen fun args _ ↦ ?_
    exact (grows_memberName owner decl).andThen fun name _ ↦ grows_callFunction name _ result

theorem grows_lowerOperator : Grows frame store (lowerOperator sub e result) := by
  refine (grows_exprType e.x).andThen fun owner _ ↦ (yields_typeOf owner).andThen fun t _ ↦ ?_
  cases t.operator? e.op with
  | none => exact yields_internal _
  | some decl =>
    have hcall (left right : List Var) (st : TypeStore) : Grows frame st (do
        let name ← onStore (TypeStore.memberName owner decl)
        callFunction name (left ++ right) result) :=
      (grows_memberName owner decl).andThen fun name _ ↦ grows_callFunction name _ result
    refine (grows_rvalue hsub e.x).andThen fun left st ↦ ?_
    dsimp only
    split
    · exact hcall left [] st
    · exact (grows_rvalue hsub e.y).andThen fun right st ↦ hcall left right st

theorem grows_lowerLogical : Grows frame store (lowerLogical sub e) := by
  refine (grows_newVar .bool).andThen fun r _ ↦ (grows_newBlock .breakable).andThen fun block _ ↦ ?_
  refine Yields.andThen (grows_nested fun _ ↦ ?_) fun body _ ↦
    (grows_modify fun _ ↦ by rfl).andThen fun _ _ ↦ grows_openBasic.andThen fun _ _ ↦ grows_pure _
  refine yields_operand hsub e.x fun x _ ↦ (grows_emit _).andThen fun _ _ ↦ ?_
  have hright (test : Var) (st : TypeStore) : Grows frame st (do
      emit { op := .exitIf, args := [test], target := block }
      openBasic
      let y ← first (← rvalue sub e.y)
      emit { op := .copy, dst := [r], args := [y] }) :=
    (grows_emit _).andThen fun _ _ ↦ grows_openBasic.andThen fun _ _ ↦
      yields_operand hsub e.y fun y _ ↦ grows_emit _
  dsimp only
  split
  · exact (grows_primOf x).andThen fun p _ ↦
      (grows_operation .eqz p .bool [x]).andThen hright
  · exact hright x _

theorem grows_lowerBinary (t : ConcreteType) : Grows frame store (lowerBinary sub e t) := by
  unfold lowerBinary
  split
  · exact grows_lowerLogical hsub e
  · split
    · exact yields_internalHere _
    · rename_i op _
      refine yields_operand hsub e.x fun x _ ↦ yields_operand hsub e.y fun y _ ↦ ?_
      refine (grows_primOf x).andThen fun p st ↦ ?_
      have hresult (st : TypeStore) : Grows frame st (do
          let result ← expect (← ofLayout t.slots).head?
          operation op p result [x, y]) :=
        (yields_ofLayout _).andThen fun slots _ ↦ (yields_expect _).andThen fun result _ ↦
          grows_operation op p result [x, y]
      dsimp only
      split
      · exact (grows_report _).andThen fun _ st ↦ hresult st
      · exact hresult st

theorem grows_lowerUnary (p : Prim) : Grows frame store (lowerUnary sub e p) := by
  refine yields_operand hsub e.x fun x _ ↦ (grows_primOf x).andThen fun q _ ↦ ?_
  split
  · split
    · exact grows_operation _ _ _ _
    · exact (grows_constant _ _).andThen fun _ _ ↦ grows_operation _ _ _ _
  · exact grows_operation _ _ _ _
  · exact (grows_constant _ _).andThen fun _ _ ↦ grows_operation _ _ _ _
  · exact yields_internalHere _

theorem grows_lowerConvert (t : ConcreteType) : Grows frame store (lowerConvert sub e t) := by
  refine (grows_rvalue hsub e.x).andThen fun src _ ↦ (yields_ofLayout _).andThen fun target _ ↦ ?_
  dsimp only
  split
  · exact yields_internalHere_bind _
  · refine grows_each fun q _ _ ↦ (grows_primOf q.1).andThen fun source _ ↦ ?_
    refine (grows_newVar q.2).andThen fun w _ ↦ ?_
    split
    · exact (grows_emit _).andThen fun _ _ ↦ grows_pure _
    · exact (grows_emit _).andThen fun _ _ ↦ grows_pure _

omit hsub in
theorem grows_lowerString (id : ExprId) (t : ConcreteType) :
    Grows frame store (lowerString id e t) := by
  have hcheck : Grows frame store (checkLiteral id e) := by
    refine yields_get fun s ↦ ?_
    split
    · exact grows_pure _
    · refine (grows_modify fun _ ↦ by rfl).andThen fun _ _ ↦ ?_
      split
      · exact grows_report _
      · exact grows_pure _
  have hsegment (st : TypeStore) : Grows frame st (dataSegment e.str.bytes) :=
    fun _ _ _ _ ↦ ⟨.refl _, trivial⟩
  refine hcheck.andThen fun _ st ↦ (hsegment st).andThen fun segment _ ↦ ?_
  refine (yields_ofLayout _).andThen fun slots _ ↦ ?_
  split
  · exact (grows_address .data segment).andThen fun _ _ ↦ grows_pure _
  · exact (grows_address .data segment).andThen fun _ _ ↦
      (grows_constant _ _).andThen fun _ _ ↦ grows_pure _
  · exact (grows_report _).andThen fun _ _ ↦ grows_newVars _

/-- An aggregate is made by its constructor, or member by member in places that fit. -/
theorem yields_lowerConstruct (h : Handle) {dst : Option Value} (hdst : FitsIfAny store dst) :
    Yields frame store (lowerConstruct sub e h dst) fun w st ↦ w.Fits st := by
  refine (yields_typeOf h).bind fun t store₁ hg₁ ht ↦ ?_
  have hdst₁ := hdst.gains hg₁
  dsimp only
  split
  · refine (grows_memberName h t.init).bind fun name _ hg₂ _ ↦ ?_
    refine (grows_arguments hsub e.args).bind fun args _ hg₃ _ ↦ ?_
    refine (grows_callFunction name args h).bind fun vars _ hg₄ _ ↦ ?_
    exact yields_deliver vars h (hdst₁.gains ((hg₂.trans hg₃).trans hg₄))
  · split
    · exact yields_internalHere_bind _
    · split
      case h_1 =>
        have hfill (target : Value) {st : TypeStore} (htarget : target.Fits st) :
            Yields frame st (do
              for p in e.args.zip t.members do
                let place ← selectMember target p.2.name
                discard (sub p.1 (some place))
              return target) fun w st ↦ w.Fits st := by
          refine (grows_forIn fun p _ st' hg ↦ ?_).bind fun _ _ hg _ ↦
            yields_pure fun _ hg' ↦ fits_gains htarget (hg.trans hg')
          have htarget' := fits_gains htarget hg
          refine (yields_selectMember htarget' p.2.name).bind fun place _ _ hplace ↦ ?_
          exact (hsub.into p.1 hplace).andThen fun _ _ ↦ yields_pure fun _ _ ↦ rfl
        cases dst with
        | some d => exact hfill d (hdst₁ d rfl)
        | none =>
          exact (yields_ofLayout _).andThen fun slots _ ↦ (grows_newVars slots).andThen
            fun vars _ ↦ hfill (.direct h vars) (Value.fits_direct vars)
      -- an instance of a class is filled behind its new pointer
      case h_2 hkind =>
        have hagg : t.kind.isAggregate := by
          rw [hkind]
          rfl
        refine (grows_allocate t.size).bind fun pointer store₂ hg₂ _ ↦ ?_
        refine (grows_forIn fun p hp st hg ↦ ?_).bind fun _ _ hg₃ _ ↦
          yields_deliver [pointer] h (hdst₁.gains (hg₂.trans hg₃))
        have hm : p.2 ∈ t.members := (List.of_mem_zip hp).2
        refine (yields_instanceMember pointer ((hg₂.trans hg).type _ _ ht) hagg hm).bind
          fun place _ _ hplace ↦ ?_
        exact (hsub.into p.1 hplace).andThen fun _ _ ↦ yields_pure fun _ _ ↦ rfl
      case h_3 => exact yields_internalHere _

omit hsub in
theorem grows_localVars (i : LocalId) : Grows frame store (localVars i) :=
  yields_read ((yields_expect _).imp fun _ _ _ _ ↦ trivial)

omit hsub in
theorem grows_globalIndex (i : DeclId) : Grows frame store (globalIndex i) :=
  fun _ _ _ _ ↦ ⟨.refl _, trivial⟩

/-- An expression gives a value that fits when its parts do. -/
theorem yields_exprStep (id : ExprId) {dst : Option Value} (hdst : FitsIfAny store dst) :
    Yields frame store (exprStep sub id e dst) fun w st ↦ w.Fits st := by
  refine (grows_resolve e.type).bind fun h _ hg₁ _ ↦ (yields_typeOf h).bind fun t store₁ hg₂ _ ↦ ?_
  replace hdst := hdst.gains (hg₁.trans hg₂)
  -- most forms end by delivering the variables they have made
  have hdeliver {st : TypeStore} (hg : store₁.Gains st) {x : M (List Var)}
      (hx : Grows frame st x) :
      Yields frame st (do deliver (← x) h dst) fun w st ↦ w.Fits st :=
    hx.bind fun vars _ hg' _ ↦ yields_deliver vars h (hdst.gains (hg.trans hg'))
  have hsingle {st : TypeStore} (hg : store₁.Gains st) {x : M Var} (hx : Grows frame st x) :
      Yields frame st (do deliver [← x] h dst) fun w st ↦ w.Fits st :=
    hx.bind fun v _ hg' _ ↦ yields_deliver [v] h (hdst.gains (hg.trans hg'))
  have hslot {f : Prim → M Value}
      (hf : ∀ p st, store₁.Gains st → Yields frame st (f p) fun w st ↦ w.Fits st) :
      Yields frame store₁ (do f (← expect (← ofLayout t.slots).head?)) fun w st ↦ w.Fits st :=
    (yields_ofLayout _).bind fun _ _ hg _ ↦ (yields_expect _).bind fun p st hg' _ ↦
      hf p st (hg.trans hg')
  have hrefl := TypeStore.Gains.refl store₁
  cases e.kind
  case int => exact hslot fun p st hg ↦ hsingle hg (grows_constant p e.int)
  case float =>
    refine hslot fun p st hg ↦ (grows_newVar p).bind fun v _ hg' _ ↦ ?_
    exact (grows_emit _).bind fun _ _ hg'' _ ↦
      yields_deliver [v] h (hdst.gains ((hg.trans hg').trans hg''))
  case bool => exact hsingle hrefl (grows_constant .bool _)
  case null => exact hsingle hrefl (grows_constant .pointer 0)
  case string => exact hdeliver hrefl (grows_lowerString e id t)
  case loc =>
    exact (grows_localVars e.loc).bind fun vars _ hg _ ↦
      yields_deliverValue (Value.fits_direct vars) (hdst.gains hg)
  case self => exact yields_read (yields_deliverValue (Value.fits_direct _) hdst)
  case global =>
    exact (grows_globalIndex e.decl).bind fun index _ hg _ ↦
      yields_deliverValue (Value.fits_global_zero index) (hdst.gains hg)
  case funcRef =>
    refine (grows_newVar .pointer).bind fun v _ hg _ ↦ ?_
    refine (grows_calleeName e).bind fun name _ hg' _ ↦ ?_
    refine (grows_modify fun _ ↦ by rfl).bind fun _ _ hg₃ _ ↦ (grows_emit _).bind fun _ _ hg₄ _ ↦ ?_
    exact yields_deliver [v] h (hdst.gains (((hg.trans hg').trans hg₃).trans hg₄))
  case call => exact hdeliver hrefl (grows_lowerCall hsub e h)
  case callValue => exact hdeliver hrefl (grows_lowerCallValue hsub e h)
  case methodCall => exact hdeliver hrefl (grows_lowerMethodCall hsub e h)
  case operator => exact hdeliver hrefl (grows_lowerOperator hsub e h)
  case member =>
    refine (hsub.apply e.x).bind fun whole _ hg hwhole ↦ ?_
    refine (yields_selectMember hwhole e.name).bind fun part _ hg' hpart ↦ ?_
    exact yields_deliverValue hpart (hdst.gains (hg.trans hg'))
  case binary => exact hsingle hrefl (grows_lowerBinary hsub e t)
  case unary => exact hslot fun p _ hg ↦ hsingle hg (grows_lowerUnary hsub e p)
  case convert => exact hdeliver hrefl (grows_lowerConvert hsub e t)
  case construct => exact yields_lowerConstruct hsub e h hdst
  case alloc =>
    refine (yields_typeOf t.elem).bind fun elem _ hg _ ↦ ?_
    refine (yields_ofLayout _).bind fun size _ hg' _ ↦ ?_
    refine (grows_allocate size).bind fun pointer _ hg₃ _ ↦ ?_
    have hdst' := hdst.gains ((hg.trans hg').trans hg₃)
    dsimp only
    split
    · exact (hsub.into e.x (Value.fits_relative_zero pointer)).bind fun _ _ hg₄ _ ↦
        yields_deliver [pointer] h (hdst'.gains hg₄)
    · exact yields_deliver [pointer] h hdst'
  case deref =>
    refine (grows_rvalue hsub e.x).bind fun vs _ hg _ ↦ (grows_first vs).bind fun base _ hg' _ ↦ ?_
    exact yields_deliverValue (Value.fits_relative_zero base) (hdst.gains (hg.trans hg'))
  case unknown => exact yields_internalHere _

end

theorem subFits_lowerWithin (depth : Nat) : SubFits (lowerWithin depth) := by
  induction depth with
  | zero => exact fun _ _ _ _ _ ↦ yields_throw
  | succ depth ih =>
    intro frame store id dst hdst
    refine grows_program.bind fun p _ hg _ ↦ ?_
    cases p.expr? id with
    | none => exact yields_internalHere _
    | some e => exact yields_exprStep ih e id (hdst.gains hg)

/-- **Lowering an expression gives a value that fits.** -/
theorem subFits_lowerExpr : SubFits lowerExpr :=
  fun frame _ id dst hdst ↦ grows_program.bind fun _ _ hg _ ↦
    subFits_lowerWithin _ frame _ id dst (hdst.gains hg)

theorem yields_targetWithin (depth : Nat) (id : ExprId) :
    Yields frame store (targetWithin depth id) fun w st ↦ w.Fits st := by
  have hsub := subFits_lowerExpr
  induction depth generalizing id store with
  | zero => exact yields_throw
  | succ depth ih =>
    refine grows_program.andThen fun p _ ↦ (yields_expect _).andThen fun e _ ↦ ?_
    refine (grows_resolve e.type).andThen fun h _ ↦ ?_
    split
    · exact (grows_localVars e.loc).andThen fun vars _ ↦
        yields_pure fun _ _ ↦ Value.fits_direct vars
    · exact yields_read (yields_pure fun _ _ ↦ Value.fits_direct _)
    · exact (grows_globalIndex e.decl).andThen fun index _ ↦
        yields_pure fun _ _ ↦ Value.fits_global_zero index
    · exact yields_operand hsub e.x fun base _ ↦
        yields_pure fun _ _ ↦ Value.fits_relative_zero base
    · refine (grows_exprType e.x).andThen fun owner _ ↦ (yields_typeOf owner).andThen fun t _ ↦ ?_
      split
      · exact (hsub.apply e.x).bind fun v _ _ hv ↦ yields_selectMember hv e.name
      · exact (ih e.x).bind fun v _ _ hv ↦ yields_selectMember hv e.name
    · exact yields_internalHere _

/-- The place that an assignment writes to fits. -/
theorem yields_assignTarget (id : ExprId) :
    Yields frame store (assignTarget id) fun w st ↦ w.Fits st :=
  grows_program.andThen fun _ _ ↦ yields_targetWithin _ id

end Lowering

end WasmBackend
