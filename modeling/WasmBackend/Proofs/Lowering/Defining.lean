import WasmBackend.Proofs.Lowering.ShortCircuit
import WasmBackend.Proofs.Lowering.SingleResults

/-!
# What the code of an expression defines

The variables of a local or of the receiver are handed out as they are, without a copy.  That is
safe because lowering an expression only adds code, behind what is there, and the code it adds
defines no variable that existed before, apart from those of the place the value was asked for in.

`Defining` says so of two states and `Assigns` of a step.  The variables that may be defined are
those from a number on that exist by the time the step is done, and given ones: the slots of the
place, which members of an aggregate share out among themselves.
-/

namespace WasmBackend

open Ir (Block BlockId BlockKind Forest Instr Machine Opcode State Var)
open Stage (Ensures)

/-- The variables an instruction assigns, on the way of a branch as well. -/
def Ir.Instr.assigned (i : Instr) : List Var :=
  i.dst ++ i.copies.map Ir.Copy.dst

/-- The variables a value is held in; a place in memory is held in none. -/
def Value.row : Value → List Var
  | .direct _ slots => slots
  | .relative _ _ _ | .global _ _ _ => []

/-- The variables of the place that a value is asked for in. -/
def Value.rowOf (dst : Option Value) : List Var :=
  (dst.map Value.row).getD []

namespace Lowering

variable {α β : Type} {n m : ℕ} {given : List Var} {x : M α} {post : α → ℕ → Prop} {sub : Sub}

/-- The instructions lowered so far into the block at a position. -/
def codeOf (s : Lowering) (k : ℕ) : List Instr :=
  (s.blocks[k]?.map Block.instrs).getD []

/-- Variables from `n` on of which `m` exist, or given ones. -/
def Open (n : ℕ) (given : List Var) (m : ℕ) (v : Var) : Prop :=
  (n ≤ v ∧ v < m) ∨ v ∈ given

/-- The second state has the variables and the code of the first, and what stands behind that code
defines only variables from `n` on and given ones. -/
structure Defining (n : ℕ) (given : List Var) (s t : Lowering) : Prop where
  vars : s.vars.toList <+: t.vars.toList
  code : ∀ k, ∃ is, t.codeOf k = s.codeOf k ++ is ∧
    ∀ i ∈ is, ∀ v ∈ i.assigned, Open n given t.vars.size v

/-- Whatever the frame, where `m` variables exist the step adds code that defines only variables
from `n` on and given ones; `post` is told how many variables exist behind it. -/
def Assigns (n : ℕ) (given : List Var) (m : ℕ) (x : M α) (post : α → ℕ → Prop) : Prop :=
  ∀ (frame : Frame) (s : Lowering), n ≤ s.vars.size → m ≤ s.vars.size →
    Ensures (x frame) s fun a t ↦ Defining n given s t ∧ post a t.vars.size

/-! ## States -/

section

variable {s t u : Lowering} {v : Var}

theorem Open.mono {k : ℕ} (h : Open n given m v) (hk : m ≤ k) : Open n given k v :=
  h.imp_left fun hv ↦ ⟨hv.1, Nat.lt_of_lt_of_le hv.2 hk⟩

theorem Defining.vars_le (h : Defining n given s t) : s.vars.size ≤ t.vars.size := by
  simpa using h.vars.length_le

/-- Nothing was added. -/
theorem Defining.of_code_eq (hvars : s.vars.toList <+: t.vars.toList)
    (hcode : ∀ k, t.codeOf k = s.codeOf k) : Defining n given s t where
  vars := hvars
  code k := ⟨[], by rw [hcode, List.append_nil], fun _ hi ↦ absurd hi List.not_mem_nil⟩

theorem Defining.refl (s : Lowering) : Defining n given s s :=
  .of_code_eq (List.prefix_refl _) fun _ ↦ rfl

theorem Defining.trans (h : Defining n given s t) (h' : Defining n given t u) :
    Defining n given s u where
  vars := h.vars.trans h'.vars
  code k := by
    obtain ⟨is, hcode, his⟩ := h.code k
    obtain ⟨is', hcode', his'⟩ := h'.code k
    refine ⟨is ++ is', by rw [hcode', hcode, List.append_assoc], fun i hi v hv ↦ ?_⟩
    obtain hold | hnew := List.mem_append.1 hi
    · exact (his i hold v hv).mono h'.vars_le
    · exact his' i hnew v hv

theorem Aside.defining (h : s.Aside t) : Defining n given s t :=
  .of_code_eq h.vars fun k ↦ by rw [codeOf, codeOf, h.blocks]

/-- An instruction goes to the end of one block, if there is that block. -/
theorem defining_append (s : Lowering) {i : Instr}
    (hi : ∀ v ∈ i.assigned, Open n given s.vars.size v) : Defining n given s (s.append i) where
  vars := List.prefix_refl _
  code k := by
    unfold codeOf append
    rw [Array.getElem?_modify]
    split
    · cases s.blocks[k]? with
      | none => exact ⟨[], rfl, fun _ hi ↦ absurd hi List.not_mem_nil⟩
      | some b => exact ⟨[i], rfl, List.forall_mem_singleton.2 hi⟩
    · exact ⟨[], (List.append_nil _).symm, fun _ hi ↦ absurd hi List.not_mem_nil⟩

theorem codeOf_push (s : Lowering) (kind : BlockKind) (nesting : List (List BlockId)) (k : ℕ) :
    codeOf { s with blocks := s.blocks.push { kind := kind }, nesting := nesting } k
      = s.codeOf k := by
  unfold codeOf
  rw [Array.getElem?_push]
  split
  · rw [Array.getElem?_eq_none (by omega)]
    rfl
  · rfl

end

/-! ## One rule for every way to put steps together -/

theorem Assigns.imp {post' : α → ℕ → Prop} (h : Assigns n given m x post)
    (hpost : ∀ a k, m ≤ k → post a k → post' a k) : Assigns n given m x post' :=
  fun frame s hn hm ↦ (h frame s hn hm).imp fun a _ ht ↦
    ⟨ht.1, hpost a _ (Nat.le_trans hm ht.1.vars_le) ht.2⟩

theorem assigns_pure {a : α} (h : ∀ k, m ≤ k → post a k) : Assigns n given m (pure a) post :=
  fun _ s _ hm ↦ ⟨.refl s, h _ hm⟩

theorem assigns_throw (e : LoweringFault) : Assigns n given m (throw e : M α) post :=
  fun _ _ _ _ ↦ trivial

theorem Assigns.bind {f : α → M β} {post' : β → ℕ → Prop} (hx : Assigns n given m x post)
    (hf : ∀ a k, m ≤ k → post a k → Assigns n given k (f a) post') :
    Assigns n given m (x >>= f) post' := by
  intro frame s hn hm
  refine ensures_bind.2 ((hx frame s hn hm).imp ?_)
  rintro a t ⟨hst, ha⟩
  refine (hf a _ (Nat.le_trans hm hst.vars_le) ha frame t (Nat.le_trans hn hst.vars_le)
    (Nat.le_refl _)).imp ?_
  rintro b u ⟨htu, hb⟩
  exact ⟨hst.trans htu, hb⟩

/-- A step whose result does not matter for what may be defined. -/
theorem Assigns.andThen {f : α → M β} {post' : β → ℕ → Prop} (hx : Assigns n given m x post)
    (hf : ∀ a k, m ≤ k → Assigns n given k (f a) post') : Assigns n given m (x >>= f) post' :=
  hx.bind fun a k hk _ ↦ hf a k hk

theorem assigns_get {f : Lowering → M β} {post : β → ℕ → Prop}
    (h : ∀ s, Assigns n given m (f s) post) : Assigns n given m (get >>= f) post :=
  fun frame s hn hm ↦ h s frame s hn hm

theorem assigns_read {f : Frame → M β} {post : β → ℕ → Prop}
    (h : ∀ frame, Assigns n given m (f frame) post) : Assigns n given m (read >>= f) post :=
  fun frame s hn hm ↦ h frame frame s hn hm

/-- A change of the state that leaves variables and code alone. -/
theorem assigns_modify {g : Lowering → Lowering} (hvars : ∀ s, (g s).vars = s.vars)
    (hcode : ∀ s k, (g s).codeOf k = s.codeOf k) :
    Assigns n given m (modify g) fun _ _ ↦ True :=
  fun _ s _ _ ↦ ⟨.of_code_eq (by rw [hvars]) (hcode s), trivial⟩

theorem assigns_discard (h : Assigns n given m x post) :
    Assigns n given m (discard x) fun _ _ ↦ True := by
  show Assigns n given m (Functor.map (fun _ ↦ PUnit.unit) x) _
  rw [map_eq_pure_bind]
  exact h.andThen fun _ _ _ ↦ assigns_pure fun _ _ ↦ trivial

theorem assigns_mapM {l : List α} {f : α → M β} {post : β → ℕ → Prop}
    (hmono : ∀ b j k, j ≤ k → post b j → post b k)
    (h : ∀ a ∈ l, ∀ k, m ≤ k → Assigns n given k (f a) post) :
    Assigns n given m (l.mapM f) fun bs k ↦ ∀ b ∈ bs, post b k := by
  induction l generalizing m with
  | nil => exact assigns_pure fun _ _ ↦ nofun
  | cons a l ih =>
    rw [List.mapM_cons]
    refine (h a List.mem_cons_self m (Nat.le_refl m)).bind fun b j hj hb ↦ ?_
    refine (ih fun c hc k hk ↦ h c (List.mem_cons_of_mem a hc) k (Nat.le_trans hj hk)).bind
      fun bs k hk hbs ↦ assigns_pure fun i hi ↦ List.forall_mem_cons.2 ⟨?_, fun c hc ↦ ?_⟩
    · exact hmono b j i (Nat.le_trans hk hi) hb
    · exact hmono c k i hi (hbs c hc)

/-- Steps of which each adds such code, wherever it comes in the row. -/
theorem assigns_each {l : List α} {f : α → M β}
    (h : ∀ a ∈ l, ∀ k, m ≤ k → Assigns n given k (f a) fun _ _ ↦ True) :
    Assigns n given m (l.mapM f) fun _ _ ↦ True :=
  (assigns_mapM (fun _ _ _ _ _ ↦ trivial) h).imp fun _ _ _ _ ↦ trivial

theorem assigns_forIn {l : List α} {f : α → PUnit → M (ForInStep PUnit)}
    (h : ∀ a ∈ l, ∀ k, m ≤ k → Assigns n given k (f a ⟨⟩) fun _ _ ↦ True) :
    Assigns n given m (forIn l PUnit.unit f) fun _ _ ↦ True := by
  induction l generalizing m with
  | nil => exact assigns_pure fun _ _ ↦ trivial
  | cons a l ih =>
    rw [List.forIn_cons]
    refine (h a List.mem_cons_self m (Nat.le_refl m)).andThen fun r j hj ↦ ?_
    cases r with
    | done => exact assigns_pure fun _ _ ↦ trivial
    | yield => exact ih fun c hc k hk ↦ h c (List.mem_cons_of_mem a hc) k (Nat.le_trans hj hk)

/-- A step that touches no block adds no code. -/
theorem Quiet.assigns (h : Quiet x) : Assigns n given m x fun _ _ ↦ True :=
  fun frame s _ _ ↦ (h frame s).imp fun _ _ ht ↦ ⟨ht.defining, trivial⟩

theorem assigns_internalHere (message : Text) :
    Assigns n given m (internalHere message : M α) post :=
  fun _ _ _ _ ↦ trivial

/-- Nothing behind a broken invariant of the function happens. -/
theorem assigns_internalHere_bind (message : Text) {f : α → M β} {post : β → ℕ → Prop} :
    Assigns n given m (internalHere message >>= f) post :=
  fun _ _ _ _ ↦ trivial

/-! ## Instructions and blocks -/

theorem assigns_emit {i : Instr} (hi : ∀ v ∈ i.assigned, Open n given m v) :
    Assigns n given m (emit i) fun _ _ ↦ True :=
  fun _ s _ hm ↦ ⟨defining_append s fun v hv ↦ (hi v hv).mono hm, trivial⟩

/-- An instruction with results and nothing on its way. -/
theorem assigned_of_dst {i : Instr} (hcopies : i.copies = []) (hdst : ∀ v ∈ i.dst, Open n given m v) :
    ∀ v ∈ i.assigned, Open n given m v := by
  unfold Ir.Instr.assigned
  rw [hcopies, List.map_nil, List.append_nil]
  exact hdst

/-- An instruction with one result. -/
theorem assigns_emitTo {i : Instr} {v : Var} (hcopies : i.copies = []) (hdst : i.dst = [v])
    (hv : Open n given m v) : Assigns n given m (emit i) fun _ _ ↦ True :=
  assigns_emit (assigned_of_dst hcopies (by rw [hdst]; exact List.forall_mem_singleton.2 hv))

/-- An instruction without results. -/
theorem assigns_emitBare {i : Instr} (hcopies : i.copies = []) (hdst : i.dst = []) :
    Assigns n given m (emit i) fun _ _ ↦ True :=
  assigns_emit (assigned_of_dst hcopies (by rw [hdst]; exact nofun))

/-- A new variable may be defined. -/
theorem assigns_newVar (p : Prim) : Assigns n given m (newVar p) fun v k ↦ Open n given k v := by
  intro frame s hn _
  refine ⟨(aside_push s p).defining, .inl ⟨hn, ?_⟩⟩
  simp

theorem assigns_newVars (ps : List Prim) :
    Assigns n given m (newVars ps) fun vs k ↦ ∀ v ∈ vs, Open n given k v :=
  assigns_mapM (fun _ _ _ hk hv ↦ hv.mono hk) fun p _ _ _ ↦ assigns_newVar p

theorem assigns_newBlock (kind : BlockKind) :
    Assigns n given m (newBlock kind) fun _ _ ↦ True := by
  refine assigns_get fun _ ↦ Assigns.andThen (assigns_modify (fun _ ↦ rfl) fun s k ↦ ?_) fun _ _ _ ↦
    assigns_pure fun _ _ ↦ trivial
  exact codeOf_push s kind _ k

theorem assigns_openBasic : Assigns n given m openBasic fun _ _ ↦ True :=
  (assigns_newBlock .basic).andThen fun _ _ _ ↦ assigns_modify (fun _ ↦ rfl) fun _ _ ↦ rfl

theorem assigns_updateBlock (id : BlockId) {f : Block → Block} (hf : ∀ b, (f b).instrs = b.instrs) :
    Assigns n given m (updateBlock id f) fun _ _ ↦ True := by
  refine assigns_modify (fun _ ↦ rfl) fun s k ↦ ?_
  unfold codeOf
  rw [Array.getElem?_modify]
  split
  · rw [Option.map_map]
    congr 2
    exact funext hf
  · rfl

theorem assigns_nested {body : M Unit}
    (hbody : ∀ k, m ≤ k → Assigns n given k body fun _ _ ↦ True) :
    Assigns n given m (nested body) fun _ _ ↦ True := by
  refine Assigns.andThen (assigns_modify (fun _ ↦ rfl) fun _ _ ↦ rfl) fun _ _ hi ↦ ?_
  refine assigns_openBasic.andThen fun _ j hj ↦ ?_
  refine (hbody j (Nat.le_trans hi hj)).andThen fun _ _ _ ↦ assigns_get fun s ↦ ?_
  exact Assigns.andThen (assigns_modify (fun _ ↦ rfl) fun _ _ ↦ rfl) fun _ _ _ ↦
    assigns_pure fun _ _ ↦ trivial

theorem assigns_constInto {v : Var} (hv : Open n given m v) (p : Prim) (k : Int64) :
    Assigns n given m (constInto v p k) fun _ _ ↦ True := by
  unfold constInto
  split
  · exact assigns_emitTo rfl rfl hv
  · exact assigns_emitTo rfl rfl hv

theorem assigns_constant (p : Prim) (k : Int64) :
    Assigns n given m (constant p k) fun _ _ ↦ True :=
  (assigns_newVar p).bind fun _ _ _ hv ↦ (assigns_constInto hv p k).andThen fun _ _ _ ↦
    assigns_pure fun _ _ ↦ trivial

theorem assigns_address (zone : Ir.Zone) (index : ℕ) :
    Assigns n given m (address zone index) fun _ _ ↦ True :=
  (assigns_newVar .pointer).bind fun _ _ _ hv ↦ Assigns.andThen (assigns_emitTo rfl rfl hv)
    fun _ _ _ ↦ assigns_pure fun _ _ ↦ trivial

theorem assigns_operation (op : Opcode) (storage result : Prim) (args : List Var) :
    Assigns n given m (operation op storage result args) fun _ _ ↦ True :=
  (assigns_newVar result).bind fun _ _ _ hv ↦ Assigns.andThen (assigns_emitTo rfl rfl hv)
    fun _ _ _ ↦ assigns_pure fun _ _ ↦ trivial

/-! ## Values -/

theorem assigns_place? (v : Value) : Assigns n given m (place? v) fun _ _ ↦ True := by
  cases v with
  | direct type slots => exact assigns_pure fun _ _ ↦ trivial
  | relative type base offset => exact assigns_pure fun _ _ ↦ trivial
  | global type index offset =>
    exact (assigns_address .global index).andThen fun _ _ _ ↦ assigns_pure fun _ _ ↦ trivial

/-- What is read from memory goes to new variables. -/
theorem assigns_readValue (v : Value) : Assigns n given m (readValue v) fun _ _ ↦ True := by
  unfold readValue
  split
  · exact assigns_pure fun _ _ ↦ trivial
  refine (assigns_place? _).andThen fun place _ _ ↦ (quiet_expect place).assigns.andThen
    fun p _ _ ↦ (quiet_typeOf _).assigns.andThen fun t _ _ ↦ ?_
  refine (quiet_ofLayout t.entries).assigns.andThen fun entries _ _ ↦ assigns_each fun e _ _ _ ↦ ?_
  refine (assigns_newVar e.prim).bind fun dst j _ hdst ↦ ?_
  refine (quiet_offset32 e.offset).assigns.andThen fun at32 k hk ↦ ?_
  exact Assigns.andThen (assigns_emitTo rfl rfl (hdst.mono hk)) fun _ _ _ ↦
    assigns_pure fun _ _ ↦ trivial

/-- Writing a value defines its row, if it has one. -/
theorem assigns_writeValue {dst : Value} (hdst : ∀ v ∈ dst.row, Open n given m v)
    (src : List Var) : Assigns n given m (writeValue dst src) fun _ _ ↦ True := by
  unfold writeValue
  split
  · rename_i type slots
    dsimp only
    split
    · exact assigns_internalHere_bind _
    refine (assigns_forIn fun q hq k hk ↦ ?_).andThen fun _ _ _ ↦ assigns_pure fun _ _ ↦ trivial
    have hslot : Open n given k q.1 := (hdst q.1 (List.of_mem_zip hq).1).mono hk
    split
    · exact Assigns.andThen (assigns_emitTo rfl rfl hslot) fun _ _ _ ↦
        assigns_pure fun _ _ ↦ trivial
    · exact assigns_pure fun _ _ ↦ trivial
  · refine (assigns_place? _).andThen fun place _ _ ↦ (quiet_expect place).assigns.andThen
      fun p _ _ ↦ (quiet_typeOf _).assigns.andThen fun t _ _ ↦ ?_
    refine (quiet_ofLayout t.entries).assigns.andThen fun entries _ _ ↦ ?_
    dsimp only
    split
    · exact assigns_internalHere_bind _
    refine (assigns_forIn fun q _ _ _ ↦ ?_).andThen fun _ _ _ ↦ assigns_pure fun _ _ ↦ trivial
    refine (quiet_offset32 q.1.offset).assigns.andThen fun at32 _ _ ↦ ?_
    exact Assigns.andThen (assigns_emitBare rfl rfl) fun _ _ _ ↦ assigns_pure fun _ _ ↦ trivial

/-- A member of a class instance is in memory. -/
theorem assigns_instanceMember (pointer : Var) (member : Member) :
    Assigns n given m (instanceMember pointer member) fun p _ ↦ p.row = [] :=
  (quiet_offset32 member.offset).assigns.andThen fun _ _ _ ↦ assigns_pure fun _ _ ↦ rfl

/-- A member is held in variables of the whole. -/
theorem assigns_selectMember (v : Value) (name : Text) :
    Assigns n given m (selectMember v name) fun p _ ↦ ∀ x ∈ p.row, x ∈ v.row := by
  refine (quiet_typeOf v.type).assigns.andThen fun t _ _ ↦ ?_
  split
  · exact assigns_throw _
  rename_i member _
  split
  · refine (assigns_readValue v).andThen fun vars _ _ ↦ (quiet_expect _).assigns.andThen
      fun pointer _ _ ↦ (assigns_instanceMember pointer member).imp fun p _ _ hp ↦ ?_
    rw [hp]
    exact nofun
  · split
    · refine (quiet_typeOf member.type).assigns.andThen fun t' _ _ ↦ ?_
      refine (quiet_ofLayout t'.slotCount).assigns.andThen fun count _ _ ↦ ?_
      split
      · exact assigns_pure fun _ _ x hx ↦ List.mem_of_mem_drop (List.mem_of_mem_take hx)
      · exact assigns_throw _
    · exact (quiet_offset32 member.offset).assigns.andThen fun _ _ _ ↦ assigns_pure fun _ _ ↦ nofun
    · exact (quiet_offset32 member.offset).assigns.andThen fun _ _ _ ↦ assigns_pure fun _ _ ↦ nofun
  · exact assigns_throw _

section

variable {dst : Option Value}

theorem assigns_deliver (vars : List Var) (h : Handle)
    (hdst : ∀ v ∈ Value.rowOf dst, Open n given m v) :
    Assigns n given m (deliver vars h dst) fun _ _ ↦ True := by
  cases dst with
  | none => exact assigns_pure fun _ _ ↦ trivial
  | some d => exact (assigns_writeValue hdst vars).andThen fun _ _ _ ↦
      assigns_pure fun _ _ ↦ trivial

theorem assigns_deliverValue (v : Value) (hdst : ∀ v ∈ Value.rowOf dst, Open n given m v) :
    Assigns n given m (deliverValue v dst) fun _ _ ↦ True := by
  cases dst with
  | none => exact assigns_pure fun _ _ ↦ trivial
  | some d =>
    refine (assigns_readValue v).andThen fun vars k hk ↦ ?_
    exact (assigns_writeValue (fun v hv ↦ (hdst v hv).mono hk) vars).andThen fun _ _ _ ↦
      assigns_pure fun _ _ ↦ trivial

end

/-! ## Calls -/

/-- A call defines a new variable, and the other slots of its result are loaded into new ones. -/
theorem assigns_emitCall {call : Instr} (hcopies : call.copies = []) (hdst : call.dst = [])
    (result : Handle) : Assigns n given m (emitCall call result) fun _ _ ↦ True := by
  refine (quiet_slotsOf result).assigns.andThen fun slots _ _ ↦ ?_
  cases slots with
  | nil => exact (assigns_emitBare hcopies hdst).andThen fun _ _ _ ↦ assigns_pure fun _ _ ↦ trivial
  | cons p rest =>
    refine (assigns_newVar p).bind fun v _ _ hv ↦
      Assigns.andThen (assigns_emitTo hcopies rfl hv) fun _ _ _ ↦ ?_
    refine (assigns_each fun q _ _ _ ↦ ?_).andThen fun _ _ _ ↦ assigns_pure fun _ _ ↦ trivial
    refine (quiet_scratchSlot (q.2 + 1) q.1).assigns.andThen fun slot _ _ ↦ ?_
    refine (assigns_address .scratch slot).andThen fun base _ _ ↦ ?_
    exact (assigns_newVar q.1).bind fun w _ _ hw ↦ Assigns.andThen (assigns_emitTo rfl rfl hw)
      fun _ _ _ ↦ assigns_pure fun _ _ ↦ trivial

theorem assigns_callFunction (callee : Text) (args : List Var) (result : Handle) :
    Assigns n given m (callFunction callee args result) fun _ _ ↦ True :=
  assigns_emitCall rfl rfl result

theorem assigns_allocate (size : ℕ) : Assigns n given m (allocate size) fun _ _ ↦ True := by
  refine (assigns_constant .pointer _).andThen fun k _ _ ↦
    (quiet_onStore _).assigns.andThen fun result _ _ ↦ ?_
  exact (assigns_callFunction allocFunction [k] result).andThen fun _ _ _ ↦
    (quiet_expect _).assigns

theorem assigns_absolute (x : Var) (storage : Prim) {dst : List Var}
    (hdst : ∀ v ∈ dst, Open n given m v) :
    Assigns n given m (absolute x storage dst) fun _ _ ↦ True := by
  refine (assigns_constant storage _).andThen fun shift _ hi ↦ ?_
  refine (assigns_operation .shr storage.asSigned storage [x, shift]).andThen fun sign _ hj ↦ ?_
  refine (assigns_operation .xor storage storage [x, sign]).andThen fun flipped _ hk ↦ ?_
  refine assigns_emit (assigned_of_dst rfl fun v hv ↦ ?_)
  exact (hdst v hv).mono (Nat.le_trans hi (Nat.le_trans hj hk))

/-- The result of an intrinsic goes to a new variable. -/
theorem assigns_nativeResult (result : Handle) :
    Assigns n given m (nativeResult result) fun vs k ↦ ∀ v ∈ vs, Open n given k v := by
  refine (quiet_slotsOf result).assigns.andThen fun slots _ _ ↦ ?_
  cases slots with
  | nil => exact assigns_pure fun _ _ ↦ nofun
  | cons p rest =>
    exact (assigns_newVar p).bind fun v _ _ hv ↦ assigns_pure fun _ hk ↦
      List.forall_mem_singleton.2 (hv.mono hk)

theorem assigns_lowerNative (name : Text) (args : List Var) (result : Handle) :
    Assigns n given m (lowerNative name args result) fun _ _ ↦ True := by
  refine (assigns_nativeResult result).bind fun dst _ _ hdst ↦ ?_
  refine (quiet_nativeStorage args).assigns.andThen fun storage _ hi ↦ ?_
  dsimp only
  split
  · refine (quiet_expect _).assigns.andThen fun x _ hj ↦ ?_
    exact (assigns_absolute x storage fun v hv ↦ (hdst v hv).mono (Nat.le_trans hi hj)).andThen
      fun _ _ _ ↦ assigns_pure fun _ _ ↦ trivial
  · exact (assigns_emit (assigned_of_dst rfl fun v hv ↦ (hdst v hv).mono hi)).andThen
      fun _ _ _ ↦ assigns_pure fun _ _ ↦ trivial

/-! ## Forms of expressions -/

/-- Lowering a subexpression adds code that defines new variables and, where its value is asked for
in a place, the row of that place. -/
def SubAssigns (sub : Sub) : Prop :=
  ∀ (n : ℕ) (given : List Var) (m : ℕ) (id : ExprId) (dst : Option Value),
    (∀ v ∈ Value.rowOf dst, Open n given m v) → Assigns n given m (sub id dst) fun _ _ ↦ True

section

variable (hsub : SubAssigns sub)

include hsub

theorem assigns_rvalue (id : ExprId) : Assigns n given m (rvalue sub id) fun _ _ ↦ True :=
  (hsub n given m id none nofun).andThen fun v _ _ ↦ assigns_readValue v

/-- The first variable of a subexpression. -/
theorem assigns_operand (id : ExprId) {f : Var → M β} {post : β → ℕ → Prop}
    (hf : ∀ v k, m ≤ k → Assigns n given k (f v) post) :
    Assigns n given m (do f (← first (← rvalue sub id))) post :=
  (assigns_rvalue hsub id).andThen fun _ _ hi ↦ (quiet_expect _).assigns.andThen
    fun v k hk ↦ hf v k (Nat.le_trans hi hk)

theorem assigns_arguments (ids : List ExprId) :
    Assigns n given m (arguments sub ids) fun _ _ ↦ True :=
  (assigns_each fun id _ _ _ ↦ assigns_rvalue hsub id).andThen fun _ _ _ ↦
    assigns_pure fun _ _ ↦ trivial

theorem assigns_lowerCall (e : Expr) (result : Handle) :
    Assigns n given m (lowerCall sub e result) fun _ _ ↦ True := by
  refine quiet_program.assigns.andThen fun p _ _ ↦ ?_
  split
  · split
    · exact assigns_internalHere _
    · split
      · exact (assigns_arguments hsub e.args).andThen fun args _ _ ↦
          assigns_lowerNative _ args result
      · refine (quiet_calleeName e).assigns.andThen fun name _ _ ↦ ?_
        exact (assigns_arguments hsub e.args).andThen fun args _ _ ↦
          assigns_callFunction name args result
  · exact assigns_internalHere _

theorem assigns_lowerCallValue (e : Expr) (result : Handle) :
    Assigns n given m (lowerCallValue sub e result) fun _ _ ↦ True := by
  refine assigns_operand hsub e.x fun callee _ _ ↦ (quiet_exprType e.x).assigns.andThen
    fun h _ _ ↦ (quiet_typeOf h).assigns.andThen fun t _ _ ↦ ?_
  dsimp only
  split
  · exact assigns_internalHere_bind _
  · refine (quiet_signatureOf t.params t.result).assigns.andThen fun sig _ _ ↦ ?_
    exact (assigns_arguments hsub e.args).andThen fun args _ _ ↦ assigns_emitCall rfl rfl result

theorem assigns_lowerMethodCall (e : Expr) (result : Handle) :
    Assigns n given m (lowerMethodCall sub e result) fun _ _ ↦ True := by
  refine (quiet_exprType e.x).assigns.andThen fun owner _ _ ↦
    (quiet_typeOf owner).assigns.andThen fun t _ _ ↦ ?_
  cases t.method? e.name with
  | none => exact assigns_throw _
  | some decl =>
    refine (assigns_rvalue hsub e.x).andThen fun receiver _ _ ↦ ?_
    refine (assigns_arguments hsub e.args).andThen fun args _ _ ↦ ?_
    exact (quiet_onStore _).assigns.andThen fun name _ _ ↦ assigns_callFunction name _ result

theorem assigns_lowerOperator (e : Expr) (result : Handle) :
    Assigns n given m (lowerOperator sub e result) fun _ _ ↦ True := by
  refine (quiet_exprType e.x).assigns.andThen fun owner _ _ ↦
    (quiet_typeOf owner).assigns.andThen fun t _ _ ↦ ?_
  cases t.operator? e.op with
  | none => exact assigns_throw _
  | some decl =>
    refine (assigns_rvalue hsub e.x).andThen fun left k _ ↦ ?_
    have hcall (right : List Var) (k : ℕ) : Assigns n given k (do
        let name ← onStore (TypeStore.memberName owner decl)
        callFunction name (left ++ right) result) fun _ _ ↦ True :=
      (quiet_onStore _).assigns.andThen fun name _ _ ↦ assigns_callFunction name _ result
    dsimp only
    split
    · exact hcall [] k
    · exact (assigns_rvalue hsub e.y).andThen fun right k _ ↦ hcall right k

/-- Both operands are copied into one new variable. -/
theorem assigns_lowerLogical (e : Expr) :
    Assigns n given m (lowerLogical sub e) fun _ _ ↦ True := by
  refine (assigns_newVar .bool).bind fun r _ _ hr ↦
    (assigns_newBlock .breakable).andThen fun block _ hi ↦ ?_
  refine (assigns_nested fun _ hj ↦ ?_).andThen fun body _ _ ↦
    Assigns.andThen (assigns_updateBlock block fun _ ↦ rfl) fun _ _ _ ↦
      assigns_openBasic.andThen fun _ _ _ ↦ assigns_pure fun _ _ ↦ trivial
  have hr := hr.mono (Nat.le_trans hi hj)
  refine assigns_operand hsub e.x fun x _ hk ↦
    Assigns.andThen (assigns_emitTo rfl rfl (hr.mono hk)) fun _ _ hl ↦ ?_
  have hr := hr.mono (Nat.le_trans hk hl)
  have hright (test : Var) {k : ℕ} (hr : Open n given k r) : Assigns n given k (do
      emit { op := .exitIf, args := [test], target := block }
      openBasic
      let y ← first (← rvalue sub e.y)
      emit { op := .copy, dst := [r], args := [y] }) fun _ _ ↦ True := by
    refine Assigns.andThen (assigns_emitBare rfl rfl) fun _ _ hi ↦
      assigns_openBasic.andThen fun _ _ hj ↦ assigns_operand hsub e.y fun y _ hk ↦ ?_
    exact assigns_emitTo rfl rfl (hr.mono (Nat.le_trans hi (Nat.le_trans hj hk)))
  dsimp only
  split
  · refine (quiet_primOf x).assigns.andThen fun p _ hi ↦ ?_
    exact (assigns_operation .eqz p .bool [x]).andThen fun test _ hj ↦
      hright test (hr.mono (Nat.le_trans hi hj))
  · exact hright x hr

theorem assigns_lowerBinary (e : Expr) (t : ConcreteType) :
    Assigns n given m (lowerBinary sub e t) fun _ _ ↦ True := by
  unfold lowerBinary
  split
  · exact assigns_lowerLogical hsub e
  split
  · exact assigns_internalHere _
  rename_i op _
  refine assigns_operand hsub e.x fun x _ _ ↦ assigns_operand hsub e.y fun y k _ ↦ ?_
  refine (quiet_primOf x).assigns.andThen fun p k _ ↦ ?_
  have hresult (k : ℕ) : Assigns n given k (do
      let result ← expect (← ofLayout t.slots).head?
      operation op p result [x, y]) fun _ _ ↦ True :=
    (quiet_ofLayout t.slots).assigns.andThen fun slots _ _ ↦
      (quiet_expect _).assigns.andThen fun r _ _ ↦ assigns_operation op p r [x, y]
  dsimp only
  split
  · exact (quiet_report _).assigns.andThen fun _ k _ ↦ hresult k
  · exact hresult k

theorem assigns_lowerUnary (e : Expr) (result : Prim) :
    Assigns n given m (lowerUnary sub e result) fun _ _ ↦ True := by
  refine assigns_operand hsub e.x fun x _ _ ↦ (quiet_primOf x).assigns.andThen fun p _ _ ↦ ?_
  split
  · split
    · exact assigns_operation .neg p result [x]
    · exact (assigns_constant p 0).andThen fun base _ _ ↦
        assigns_operation .sub p result [base, x]
  · exact assigns_operation .eqz p result [x]
  · exact (assigns_constant p (-1)).andThen fun ones _ _ ↦
      assigns_operation .xor p result [x, ones]
  · exact assigns_internalHere _

theorem assigns_lowerConvert (e : Expr) (t : ConcreteType) :
    Assigns n given m (lowerConvert sub e t) fun _ _ ↦ True := by
  refine (assigns_rvalue hsub e.x).andThen fun src _ _ ↦ ?_
  refine (quiet_ofLayout t.slots).assigns.andThen fun target _ _ ↦ ?_
  dsimp only
  split
  · exact assigns_internalHere_bind _
  refine assigns_each fun q _ _ _ ↦ (quiet_primOf q.1).assigns.andThen fun source _ _ ↦ ?_
  refine (assigns_newVar q.2).bind fun w _ _ hw ↦ ?_
  split
  · exact Assigns.andThen (assigns_emitTo rfl rfl hw) fun _ _ _ ↦ assigns_pure fun _ _ ↦ trivial
  · exact Assigns.andThen (assigns_emitTo rfl rfl hw) fun _ _ _ ↦ assigns_pure fun _ _ ↦ trivial

omit hsub in
theorem assigns_lowerString (id : ExprId) (e : Expr) (t : ConcreteType) :
    Assigns n given m (lowerString id e t) fun _ _ ↦ True := by
  refine (quiet_checkLiteral id e).assigns.andThen fun _ _ _ ↦ ?_
  refine (quiet_dataSegment e.str.bytes).assigns.andThen fun segment _ _ ↦ ?_
  refine (quiet_ofLayout t.slots).assigns.andThen fun slots _ _ ↦ ?_
  split
  · exact (assigns_address .data segment).andThen fun _ _ _ ↦ assigns_pure fun _ _ ↦ trivial
  · refine (assigns_address .data segment).andThen fun _ _ _ ↦ ?_
    exact (assigns_constant _ _).andThen fun _ _ _ ↦ assigns_pure fun _ _ ↦ trivial
  · exact (quiet_report _).assigns.andThen fun _ _ _ ↦ (quiet_newVars _).assigns

/-- The members of an aggregate, each into its own place. -/
theorem assigns_members {pairs : List (ExprId × Member)} {place : Member → M Value}
    (hplace : ∀ member k, m ≤ k →
      Assigns n given k (place member) fun p i ↦ ∀ v ∈ p.row, Open n given i v) :
    Assigns n given m
      (forIn pairs PUnit.unit fun (arg, member) _ => do
        let dst ← place member
        discard (sub arg (some dst))
        pure (.yield PUnit.unit)) fun _ _ ↦ True := by
  refine assigns_forIn fun q _ k hk ↦ (hplace q.2 k hk).bind fun dst i _ hdst ↦ ?_
  exact (assigns_discard (hsub n given i q.1 (some dst) hdst)).andThen fun _ _ _ ↦
    assigns_pure fun _ _ ↦ trivial

/-- A struct is built member by member in its target: the place it is asked for in, or a row of new
variables. -/
theorem assigns_fill (pairs : List (ExprId × Member)) (target : Value)
    (htarget : ∀ v ∈ target.row, Open n given m v) :
    Assigns n given m (do
      for (arg, member) in pairs do
        let place ← selectMember target member.name
        discard (sub arg (some place))
      return target) fun _ _ ↦ True := by
  have hplace (member : Member) (k : ℕ) (hk : m ≤ k) :
      Assigns n given k (selectMember target member.name)
        fun p i ↦ ∀ v ∈ p.row, Open n given i v :=
    (assigns_selectMember target member.name).imp fun p i hi hp v hv ↦
      (htarget v (hp v hv)).mono (Nat.le_trans hk hi)
  exact (assigns_members hsub hplace).andThen fun _ _ _ ↦ assigns_pure fun _ _ ↦ trivial

section

variable {dst : Option Value} (hdst : ∀ v ∈ Value.rowOf dst, Open n given m v)

include hdst

theorem assigns_lowerConstruct (e : Expr) (h : Handle) :
    Assigns n given m (lowerConstruct sub e h dst) fun _ _ ↦ True := by
  have hmono {k : ℕ} (hk : m ≤ k) : ∀ v ∈ Value.rowOf dst, Open n given k v :=
    fun v hv ↦ (hdst v hv).mono hk
  refine (quiet_typeOf h).assigns.andThen fun t _ hi ↦ ?_
  dsimp only
  split
  · refine (quiet_onStore _).assigns.andThen fun name _ hj ↦ ?_
    refine (assigns_arguments hsub e.args).andThen fun args _ hk ↦ ?_
    refine (assigns_callFunction name args h).andThen fun vars _ hl ↦ ?_
    exact assigns_deliver vars h
      (hmono (Nat.le_trans hi (Nat.le_trans hj (Nat.le_trans hk hl))))
  split
  · exact assigns_internalHere_bind _
  split
  · cases dst with
    | some d => exact assigns_fill hsub _ d (hmono hi)
    | none =>
      refine (quiet_ofLayout t.slots).assigns.andThen fun slots _ _ ↦ ?_
      exact (assigns_newVars slots).bind fun vars _ _ hvars ↦
        assigns_fill hsub _ (.direct h vars) hvars
  · refine (assigns_allocate t.size).andThen fun pointer _ hj ↦ ?_
    refine (assigns_members hsub fun member _ _ ↦ ?_).andThen fun _ _ hk ↦
      assigns_deliver [pointer] h (hmono (Nat.le_trans hi (Nat.le_trans hj hk)))
    refine (assigns_instanceMember pointer member).imp fun p _ _ hp ↦ ?_
    rw [hp]
    exact nofun
  · exact assigns_internalHere _

/-- Whatever form an expression has, its code defines new variables and the row of the place it is
asked for in. -/
theorem assigns_exprStep (id : ExprId) (e : Expr) :
    Assigns n given m (exprStep sub id e dst) fun _ _ ↦ True := by
  refine (quiet_resolve e.type).assigns.andThen fun h _ hi ↦
    (quiet_typeOf h).assigns.andThen fun t k hj ↦ ?_
  have hdst : ∀ v ∈ Value.rowOf dst, Open n given k v :=
    fun v hv ↦ (hdst v hv).mono (Nat.le_trans hi hj)
  have hmono {l : ℕ} (hl : k ≤ l) : ∀ v ∈ Value.rowOf dst, Open n given l v :=
    fun v hv ↦ (hdst v hv).mono hl
  have hdeliver {x : M Var} (hx : Assigns n given k x fun _ _ ↦ True) :
      Assigns n given k (do deliver [← x] h dst) fun _ _ ↦ True :=
    hx.andThen fun v _ hl ↦ assigns_deliver [v] h (hmono hl)
  have hdeliverAll {x : M (List Var)} (hx : Assigns n given k x fun _ _ ↦ True) :
      Assigns n given k (do deliver (← x) h dst) fun _ _ ↦ True :=
    hx.andThen fun vars _ hl ↦ assigns_deliver vars h (hmono hl)
  have hprim {x : Prim → M Var} (hx : ∀ p l, Assigns n given l (x p) fun _ _ ↦ True) :
      Assigns n given k (do
        let p ← expect (← ofLayout t.slots).head?
        deliver [← x p] h dst) fun _ _ ↦ True := by
    refine (quiet_ofLayout t.slots).assigns.andThen fun slots _ hi ↦
      (quiet_expect _).assigns.andThen fun p _ hj ↦ (hx p _).andThen fun v _ hl ↦ ?_
    exact assigns_deliver [v] h (hmono (Nat.le_trans hi (Nat.le_trans hj hl)))
  cases e.kind with
  | int => exact hprim fun p _ ↦ assigns_constant p e.int
  | float =>
    refine (quiet_ofLayout t.slots).assigns.andThen fun slots _ hi ↦
      (quiet_expect _).assigns.andThen fun p _ hj ↦ (assigns_newVar p).bind fun v _ hk hv ↦ ?_
    refine Assigns.andThen (assigns_emitTo rfl rfl hv) fun _ _ hl ↦ ?_
    exact assigns_deliver [v] h
      (hmono (Nat.le_trans hi (Nat.le_trans hj (Nat.le_trans hk hl))))
  | bool => exact hdeliver (assigns_constant .bool _)
  | null => exact hdeliver (assigns_constant .pointer 0)
  | string => exact hdeliverAll (assigns_lowerString id e t)
  | loc => exact (quiet_localVars e.loc).assigns.andThen fun vars _ hl ↦
      assigns_deliverValue _ (hmono hl)
  | self => exact assigns_read fun frame ↦ assigns_deliverValue _ hdst
  | global => exact (quiet_globalIndex e.decl).assigns.andThen fun index _ hl ↦
      assigns_deliverValue _ (hmono hl)
  | funcRef =>
    refine (assigns_newVar .pointer).bind fun v _ hi hv ↦
      (quiet_calleeName e).assigns.andThen fun name _ hj ↦ ?_
    refine Assigns.andThen (assigns_modify (fun _ ↦ rfl) fun _ _ ↦ rfl) fun _ _ hk ↦ ?_
    refine Assigns.andThen (assigns_emitTo rfl rfl (hv.mono (Nat.le_trans hj hk))) fun _ _ hl ↦ ?_
    exact assigns_deliver [v] h
      (hmono (Nat.le_trans hi (Nat.le_trans hj (Nat.le_trans hk hl))))
  | call => exact hdeliverAll (assigns_lowerCall hsub e h)
  | callValue => exact hdeliverAll (assigns_lowerCallValue hsub e h)
  | methodCall => exact hdeliverAll (assigns_lowerMethodCall hsub e h)
  | operator => exact hdeliverAll (assigns_lowerOperator hsub e h)
  | member =>
    refine (hsub n given k e.x none nofun).andThen fun whole _ hi ↦
      (assigns_selectMember whole e.name).andThen fun part _ hj ↦ ?_
    exact assigns_deliverValue part (hmono (Nat.le_trans hi hj))
  | binary => exact hdeliver (assigns_lowerBinary hsub e t)
  | unary => exact hprim fun result _ ↦ assigns_lowerUnary hsub e result
  | convert => exact hdeliverAll (assigns_lowerConvert hsub e t)
  | construct => exact assigns_lowerConstruct hsub hdst e h
  | alloc =>
    refine (quiet_typeOf t.elem).assigns.andThen fun t' _ hi ↦
      (quiet_ofLayout t'.valueSize).assigns.andThen fun size _ hj ↦ ?_
    refine (assigns_allocate size).andThen fun pointer i hl ↦ ?_
    have hle := Nat.le_trans hi (Nat.le_trans hj hl)
    split
    · refine (assigns_discard (hsub n given i _ _ ?_)).andThen fun _ _ hk ↦
        assigns_deliver [pointer] h (hmono (Nat.le_trans hle hk))
      exact nofun
    · exact assigns_deliver [pointer] h (hmono hle)
  | deref => exact assigns_operand hsub e.x fun base _ hl ↦ assigns_deliverValue _ (hmono hl)
  | unknown code hcode => exact assigns_internalHere _

end

end

theorem subAssigns_lowerWithin (depth : ℕ) : SubAssigns (lowerWithin depth) := by
  induction depth with
  | zero => exact fun _ _ _ _ _ _ ↦ assigns_throw _
  | succ depth ih =>
    intro n given m id dst hdst
    refine quiet_program.assigns.andThen fun p _ hk ↦ ?_
    split
    · exact assigns_internalHere _
    · exact assigns_exprStep ih (fun v hv ↦ (hdst v hv).mono hk) id _

/-- Lowering an expression defines new variables and the row of the place it is asked for in. -/
theorem subAssigns_lowerExpr : SubAssigns lowerExpr :=
  fun n given _ id dst hdst ↦ quiet_program.assigns.andThen fun _ _ hk ↦
    subAssigns_lowerWithin _ n given _ id dst fun v hv ↦ (hdst v hv).mono hk

/-! ## Variables that are there already -/

/-- Whatever is lowered into variables behind a state, running its code changes no variable that
existed in that state. -/
theorem vars_run_arguments {σ : Scope} {us : Forest} {frame : Frame} {s t : Lowering}
    (hs : Writing σ us s) (hframe : frame.Below s.vars.size) {ids : List ExprId} {vs : List Var}
    (hids : arguments lowerExpr ids frame s = (.ok vs, t)) {V W : Type} (m : Machine V W)
    (budget : ℕ) (st : State V W) {v : Var} (hv : v < s.vars.size) :
    (runAdded m budget s t st).1.vars v = st.vars v := by
  obtain ⟨us', hprogress, -⟩ := exists_progress hs (Nat.le_refl _) (Nat.le_refl _)
    (writes_arguments subWrites_lowerExpr hframe ids) (enlarges_arguments subEnlarges_lowerExpr ids)
    hids
  exact (hprogress.confined (Nat.le_refl _)).vars_eq st v (Nat.not_le_of_lt hv)

/-- **Lowering an expression leaves existing variables alone.**  From every state, an expression
adds code that defines only variables made for it and, where its value is asked for in a place, the
row of that place.  So the variables an expression is read from, which for a local or the receiver
are its own, still hold its value when the code of whatever expressions are lowered next has run. -/
theorem lowerExpr_defines_own (frame : Frame) (s : Lowering) :
    (∀ id dst, Ensures (lowerExpr id dst frame) s fun _ t ↦
      Defining s.vars.size (Value.rowOf dst) s t) ∧
    ∀ σ us, Writing σ us s → frame.Below s.vars.size → ∀ id vs t ids ws u,
      rvalue lowerExpr id frame s = (.ok vs, t) →
      arguments lowerExpr ids frame t = (.ok ws, u) →
        ∀ {V W : Type} (m : Machine V W) (budget : ℕ) (st : State V W), ∀ v ∈ vs,
          (runAdded m budget t u st).1.vars v = st.vars v := by
  constructor
  · intro id dst
    refine (subAssigns_lowerExpr s.vars.size (Value.rowOf dst) s.vars.size id dst
      (fun v hv ↦ .inr hv) frame s (Nat.le_refl _) (Nat.le_refl _)).imp ?_
    exact fun _ _ ht ↦ ht.1
  · intro σ us hs hframe id vs t ids ws u hid hids V W m budget st v hv
    obtain ⟨us', hprogress, hbelow, -⟩ := exists_progress hs (Nat.le_refl _) (Nat.le_refl _)
      (writes_rvalue subWrites_lowerExpr hframe id) (enlarges_rvalue subEnlarges_lowerExpr id) hid
    exact vars_run_arguments hprogress.after (hframe.mono hprogress.continues.vars_le) hids m budget
      st (hbelow v hv)

/-- The first flag is read from its own variable, and a condition over all three flags is lowered
behind it. -/
theorem lowerExpr_defines_own_flag :
    Writing [] [.basic atFlags.current] atFlags ∧ flagsFrame.Below atFlags.vars.size ∧
      ∃ t u r, rvalue lowerExpr 1 flagsFrame atFlags = (.ok [0], t) ∧
        arguments lowerExpr [6, 2] flagsFrame t = (.ok [r, 1], u) ∧ r = 3 ∧
        ∀ st : State ℕ Unit, (runAdded Ir.mover 0 t u st).1.vars 0 = st.vars 0 := by
  have hwriting := underway_atFlags.writing
  have hbelow := underway_atFlags.below
  have hid : rvalue lowerExpr 1 flagsFrame atFlags
      = (.ok [0], (rvalue lowerExpr 1 flagsFrame atFlags).2) :=
    Prod.ext (by decide +kernel) rfl
  have hids : arguments lowerExpr [6, 2] flagsFrame (rvalue lowerExpr 1 flagsFrame atFlags).2
      = (.ok [3, 1], (arguments lowerExpr [6, 2] flagsFrame
          (rvalue lowerExpr 1 flagsFrame atFlags).2).2) :=
    Prod.ext (by decide +kernel) rfl
  refine ⟨hwriting, hbelow, _, _, 3, hid, hids, rfl, fun st ↦ ?_⟩
  exact (lowerExpr_defines_own flagsFrame atFlags).2 _ _ hwriting hbelow 1 _ _ [6, 2] _ _ hid hids
    Ir.mover 0 st 0 List.mem_cons_self

end Lowering

end WasmBackend
