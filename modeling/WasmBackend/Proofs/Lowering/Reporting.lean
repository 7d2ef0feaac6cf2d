import WasmBackend.Lowering.Value
import WasmBackend.Proofs.Diagnostic.Reporting

/-!
# Steps of lowering only report

Lowering reports what it cannot lower and what looks wrong, and goes on; the bag has no part in the
code it makes.  A step of a function only reports when it does so in every frame.
-/

namespace WasmBackend

instance : HasBag Lowering :=
  ⟨fun b s ↦ { s with bag := b }⟩

namespace Lowering

open Ir (Instr Var)

variable {α β : Type} {x : M α}

/-- The step of a function only reports, in whatever frame. -/
def Reports (x : M α) : Prop :=
  ∀ frame, Stage.Reports (fun _ ↦ True) (x frame)

/-! ## One rule for every way to put steps together -/

theorem reports_pure (a : α) : Reports (pure a) :=
  fun _ ↦ Stage.reports_pure a

theorem reports_throw (e : LoweringFault) : Reports (throw e : M α) :=
  fun _ ↦ Stage.reports_throw e

theorem Reports.bind {f : α → M β} (hx : Reports x) (hf : ∀ a, Reports (f a)) :
    Reports (x >>= f) :=
  fun frame ↦ (hx frame).bind fun a ↦ hf a frame

theorem reports_get {f : Lowering → M β} (hbag : ∀ b s, f (withBag b s) = f s)
    (hf : ∀ s, Reports (f s)) : Reports (get >>= f) :=
  fun frame ↦ Stage.reports_get (fun b s ↦ congrFun (hbag b s) frame) fun s ↦ hf s frame

theorem reports_read {f : Frame → M β} (hf : ∀ frame, Reports (f frame)) :
    Reports (read >>= f) :=
  fun frame ↦ hf frame frame

theorem reports_withReader {g : Frame → Frame} (hx : Reports x) : Reports (withReader g x) :=
  fun frame ↦ hx (g frame)

theorem reports_modify {g : Lowering → Lowering}
    (hg : ∀ b s, g (withBag b s) = withBag b (g s)) : Reports (modify g) :=
  fun _ ↦ Stage.reports_modify hg

theorem reports_discard (hx : Reports x) : Reports (discard x) :=
  fun frame ↦ Stage.reports_discard (hx frame)

theorem reports_mapM {f : α → M β} {l : List α} (h : ∀ a ∈ l, Reports (f a)) :
    Reports (l.mapM f) := by
  induction l with
  | nil => exact reports_pure []
  | cons a l ih =>
    rw [List.mapM_cons]
    refine (h a List.mem_cons_self).bind fun b ↦ ?_
    exact (ih fun c hc ↦ h c (List.mem_cons_of_mem a hc)).bind fun bs ↦ reports_pure (b :: bs)

theorem reports_foldlM {f : β → α → M β} {l : List α} {b : β}
    (h : ∀ b, ∀ a ∈ l, Reports (f b a)) : Reports (l.foldlM f b) := by
  induction l generalizing b with
  | nil => exact reports_pure b
  | cons a l ih =>
    rw [List.foldlM_cons]
    exact (h b a List.mem_cons_self).bind fun b ↦ ih fun b c hc ↦ h b c (List.mem_cons_of_mem a hc)

theorem reports_forIn {f : α → β → M (ForInStep β)} {l : List α} {b : β}
    (h : ∀ a ∈ l, ∀ b, Reports (f a b)) : Reports (forIn l b f) := by
  induction l generalizing b with
  | nil => exact reports_pure b
  | cons a l ih =>
    rw [List.forIn_cons]
    refine (h a List.mem_cons_self b).bind fun r ↦ ?_
    cases r with
    | done b => exact reports_pure b
    | yield b => exact ih fun c hc ↦ h c (List.mem_cons_of_mem a hc)

/-! ## Steps that end or ask -/

theorem reports_internal (message : Text) : Reports (internal message : M α) :=
  reports_throw _

theorem reports_internalHere (message : Text) : Reports (internalHere message : M α) :=
  reports_read fun _ ↦ reports_throw _

/-- Nothing behind a broken invariant of the function happens. -/
theorem reports_internalHere_bind (message : Text) {f : α → M β} :
    Reports (internalHere message >>= f) :=
  fun _ ↦ Stage.reports_of_commutes fun _ _ ↦ rfl

theorem reports_expect (y : Option α) : Reports (expect y) := by
  cases y with
  | some a => exact reports_pure a
  | none => exact reports_throw _

theorem reports_ofLayout (y : Except Failure α) : Reports (ofLayout y) := by
  cases y with
  | ok a => exact reports_pure a
  | error e => exact reports_throw _

theorem reports_onStore (y : TypeStore.M α) : Reports (onStore y) :=
  fun _ ↦ Stage.reports_adapt (Stage.reports_zoom (fun _ _ ↦ rfl) fun _ _ _ ↦ rfl)

theorem reports_report (d : Diagnostic) : Reports (report d) :=
  fun _ ↦ Stage.reports_add trivial fun _ _ ↦ rfl

theorem reports_program : Reports program :=
  reports_get (fun _ _ ↦ rfl) fun _ ↦ reports_pure _

theorem reports_typeOf (h : Handle) : Reports (typeOf h) :=
  reports_onStore _

theorem reports_resolve (t : TypeId) : Reports (resolve t) :=
  reports_read fun _ ↦ reports_onStore _

theorem reports_slotsOf (h : Handle) : Reports (slotsOf h) :=
  (reports_typeOf h).bind fun t ↦ reports_ofLayout t.slots

theorem reports_first (vs : List Var) : Reports (first vs) :=
  reports_expect _

theorem reports_primOf (v : Var) : Reports (primOf v) := by
  refine reports_get (fun _ _ ↦ rfl) fun s ↦ ?_
  split
  · exact reports_pure _
  · exact reports_internalHere _

theorem reports_offset32 (n : ℕ) : Reports (offset32 n) := by
  unfold offset32
  split
  · exact reports_pure _
  · exact reports_internal _

/-! ## Variables, instructions and blocks -/

theorem reports_newVar (p : Prim) : Reports (newVar p) := by
  refine reports_get (fun _ _ ↦ rfl) fun s ↦ ?_
  exact (reports_modify fun _ _ ↦ rfl).bind fun _ ↦ reports_pure _

theorem reports_newVars (ps : List Prim) : Reports (newVars ps) :=
  reports_mapM fun p _ ↦ reports_newVar p

theorem reports_emit (i : Instr) : Reports (emit i) :=
  reports_modify fun _ _ ↦ rfl

theorem reports_newBlock (kind : Ir.BlockKind) : Reports (newBlock kind) := by
  refine reports_get (fun _ _ ↦ rfl) fun s ↦ ?_
  exact (reports_modify fun _ _ ↦ rfl).bind fun _ ↦ reports_pure _

theorem reports_openBasic : Reports openBasic :=
  (reports_newBlock .basic).bind fun _ ↦ reports_modify fun _ _ ↦ rfl

theorem reports_updateBlock (id : Ir.BlockId) (f : Ir.Block → Ir.Block) :
    Reports (updateBlock id f) :=
  reports_modify fun _ _ ↦ rfl

theorem reports_nested {body : M Unit} (hbody : Reports body) : Reports (nested body) := by
  refine (reports_modify fun _ _ ↦ rfl).bind fun _ ↦ reports_openBasic.bind fun _ ↦ ?_
  refine hbody.bind fun _ ↦ reports_get (fun _ _ ↦ rfl) fun s ↦ ?_
  exact (reports_modify fun _ _ ↦ rfl).bind fun _ ↦ reports_pure _

theorem reports_constInto (v : Var) (p : Prim) (n : Int64) : Reports (constInto v p n) := by
  unfold constInto
  split
  · exact reports_emit _
  · exact reports_emit _

theorem reports_constant (p : Prim) (n : Int64) : Reports (constant p n) :=
  (reports_newVar p).bind fun v ↦ (reports_constInto v p n).bind fun _ ↦ reports_pure v

theorem reports_address (zone : Ir.Zone) (index : ℕ) : Reports (address zone index) :=
  (reports_newVar .pointer).bind fun v ↦ (reports_emit _).bind fun _ ↦ reports_pure v

theorem reports_operation (op : Ir.Opcode) (storage result : Prim) (args : List Var) :
    Reports (operation op storage result args) :=
  (reports_newVar result).bind fun v ↦ (reports_emit _).bind fun _ ↦ reports_pure v

/-! ## Values -/

theorem reports_place? (v : Value) : Reports (place? v) := by
  cases v with
  | direct type slots => exact reports_pure _
  | relative type base offset => exact reports_pure _
  | global type index offset =>
    exact (reports_address .global index).bind fun base ↦ reports_pure _

theorem reports_readValue (v : Value) : Reports (readValue v) := by
  unfold readValue
  split
  · exact reports_pure _
  refine (reports_place? _).bind fun place ↦ (reports_expect place).bind fun p ↦ ?_
  refine (reports_typeOf _).bind fun t ↦ (reports_ofLayout t.entries).bind fun entries ↦ ?_
  refine reports_mapM fun e _ ↦ (reports_newVar e.prim).bind fun dst ↦ ?_
  exact (reports_offset32 e.offset).bind fun at32 ↦ (reports_emit _).bind fun _ ↦ reports_pure dst

theorem reports_writeValue (dst : Value) (src : List Var) : Reports (writeValue dst src) := by
  unfold writeValue
  split
  · dsimp only
    split
    · exact reports_internalHere_bind _
    refine (reports_forIn fun q _ _ ↦ ?_).bind fun _ ↦ reports_pure _
    split
    · exact (reports_emit _).bind fun _ ↦ reports_pure _
    · exact reports_pure _
  · refine (reports_place? _).bind fun place ↦ (reports_expect place).bind fun p ↦ ?_
    refine (reports_typeOf _).bind fun t ↦ (reports_ofLayout t.entries).bind fun entries ↦ ?_
    dsimp only
    split
    · exact reports_internalHere_bind _
    refine (reports_forIn fun q _ _ ↦ ?_).bind fun _ ↦ reports_pure _
    refine (reports_offset32 q.1.offset).bind fun at32 ↦ ?_
    exact (reports_emit _).bind fun _ ↦ reports_pure _

theorem reports_instanceMember (pointer : Var) (m : Member) :
    Reports (instanceMember pointer m) :=
  (reports_offset32 m.offset).bind fun _ ↦ reports_pure _

theorem reports_selectMember (v : Value) (name : Text) : Reports (selectMember v name) := by
  refine (reports_typeOf v.type).bind fun t ↦ ?_
  split
  · exact reports_internal _
  rename_i m _
  split
  · refine (reports_readValue v).bind fun vars ↦ (reports_first vars).bind fun pointer ↦ ?_
    exact reports_instanceMember pointer m
  · split
    · refine (reports_typeOf m.type).bind fun t' ↦ (reports_ofLayout t'.slotCount).bind fun n ↦ ?_
      split
      · exact reports_pure _
      · exact reports_throw _
    · exact (reports_offset32 m.offset).bind fun _ ↦ reports_pure _
    · exact (reports_offset32 m.offset).bind fun _ ↦ reports_pure _
  · exact reports_internal _

theorem reports_deliver (vars : List Var) (h : Handle) (dst : Option Value) :
    Reports (deliver vars h dst) := by
  cases dst with
  | none => exact reports_pure _
  | some d => exact (reports_writeValue d vars).bind fun _ ↦ reports_pure d

theorem reports_deliverValue (v : Value) (dst : Option Value) : Reports (deliverValue v dst) := by
  cases dst with
  | none => exact reports_pure v
  | some d =>
    refine (reports_readValue v).bind fun vars ↦ ?_
    exact (reports_writeValue d vars).bind fun _ ↦ reports_pure d

end Lowering

end WasmBackend
