import WasmBackend.Lowering.Unit
import WasmBackend.Proofs.Plan.Finished

/-!
# Code that refers to what is there

A function is lowered against the store of a finished plan.  `Links` says of a step that it uses no
layout before it is resolved, and that every call and every reference it emits names a function of
the plan; there is one rule for every way steps are put together.  Values carry the handles of their
types, so what is known of a value is that its type is required.
-/

namespace WasmBackend

open Ir (Block BlockKind Instr Var)
open Stage (Ensures Meets)

/-- Layouts had no part in the failure. -/
def LoweringFault.IsOther (e : LoweringFault) : Prop :=
  ∀ f, e ≠ .premature f

/-- Interning puts a value behind the others unless it is among them. -/
theorem Ir.snd_intern {α : Type} [DecidableEq α] (x : α) (xs : List α) :
    (Ir.intern x xs).2 = if x ∈ xs then xs else xs ++ [x] := by
  unfold Ir.intern
  split
  · rename_i i hi
    obtain ⟨hlt, hx, -⟩ := List.findIdx?_eq_some_iff_getElem.1 hi
    rw [if_pos (of_decide_eq_true hx ▸ List.getElem_mem hlt)]
  · rename_i hnone
    rw [if_neg]
    intro hx
    simpa using List.findIdx?_eq_none_iff.1 hnone x hx

theorem Ir.CodeUnit.snd_internTable (u : Ir.CodeUnit) (name : Text) :
    (u.internTable name).2 =
      { u with table := if name ∈ u.table then u.table else u.table ++ [name] } := by
  show { u with table := (Ir.intern name u.table).2 } = _
  rw [Ir.snd_intern]

/-- A call names a function that may be called, a reference one that the table has. -/
structure Scheduler.Supplies (σ : Scheduler) (i : Instr) : Prop where
  call : i.op = .call → σ.Callable i.callee
  funcRef : i.op = .funcRef → i.callee ∈ σ.table

namespace Lowering

variable {α β γ : Type} {σ : Scheduler} {frame : Frame} {s s' s'' : Lowering} {post : α → Prop}

/-- The types are laid out, the table is that of the plan, and the code refers to what is there. -/
structure Linked (σ : Scheduler) (s : Lowering) : Prop where
  laid : σ.Laid s.store
  table : s.unit.table = σ.table
  code : ∀ b ∈ s.blocks, ∀ i ∈ b.instrs, σ.Supplies i

/-- The unit has the same functions and imports. -/
structure SameFunctions (s s' : Lowering) : Prop where
  imports : s'.unit.imports = s.unit.imports
  funcs : s'.unit.funcs = s.unit.funcs

theorem SameFunctions.refl (s : Lowering) : s.SameFunctions s :=
  ⟨rfl, rfl⟩

theorem SameFunctions.trans (h : s.SameFunctions s') (h' : s'.SameFunctions s'') :
    s.SameFunctions s'' :=
  ⟨h'.imports.trans h.imports, h'.funcs.trans h.funcs⟩

/-- From a linked state the step leads to a linked state with the same functions and a result that
satisfies `post`, or it fails for a reason that layouts have no part in. -/
def LinksFrom (σ : Scheduler) (frame : Frame) (s : Lowering) (x : M α) (post : α → Prop) : Prop :=
  Linked σ s → Meets (x frame) s LoweringFault.IsOther fun a s' ↦
    Linked σ s' ∧ s.SameFunctions s' ∧ post a

/-- The step links from every state. -/
def Links (σ : Scheduler) (frame : Frame) (x : M α) (post : α → Prop) : Prop :=
  ∀ s, LinksFrom σ frame s x post

/-! ## One rule for every way to put steps together -/

variable {x : M α}

theorem meets_bind {f : α → M β} {err : LoweringFault → Prop} {Q : β → Lowering → Prop} :
    Meets ((x >>= f) frame) s err Q ↔ Meets (x frame) s err fun a t ↦ Meets (f a frame) t err Q :=
  Stage.meets_bind

theorem LinksFrom.bind {f : α → M β} {post' : β → Prop} (hx : LinksFrom σ frame s x post)
    (hf : ∀ a, post a → Links σ frame (f a) post') : LinksFrom σ frame s (x >>= f) post' := by
  refine fun hs ↦ meets_bind.2 ((hx hs).imp ?_)
  rintro a s₁ ⟨hs₁, hsame₁, ha⟩
  refine (hf a ha s₁ hs₁).imp ?_
  rintro b s₂ ⟨hs₂, hsame₂, hb⟩
  exact ⟨hs₂, hsame₁.trans hsame₂, hb⟩

theorem Links.bind {f : α → M β} {post' : β → Prop} (hx : Links σ frame x post)
    (hf : ∀ a, post a → Links σ frame (f a) post') : Links σ frame (x >>= f) post' :=
  fun s ↦ (hx s).bind hf

theorem Links.imp {post' : α → Prop} (hx : Links σ frame x post)
    (hpost : ∀ a, post a → post' a) : Links σ frame x post' :=
  fun s hs ↦ (hx s hs).imp fun a _ h ↦ ⟨h.1, h.2.1, hpost a h.2.2⟩

theorem links_pure {a : α} (ha : post a) : Links σ frame (pure a) post :=
  fun s hs ↦ ⟨hs, .refl s, ha⟩

theorem links_throw {f : Failure} : Links σ frame (throw (.other f) : M α) post := by
  intro s _ e he
  cases he

theorem links_get {f : Lowering → M β} {post : β → Prop}
    (h : ∀ s, Linked σ s → LinksFrom σ frame s (f s) post) : Links σ frame (get >>= f) post :=
  fun s hs ↦ h s hs hs

theorem links_read {f : Frame → M β} {post : β → Prop} (h : Links σ frame (f frame) post) :
    Links σ frame (read >>= f) post :=
  h

theorem links_withReader {g : Frame → Frame} (h : Links σ (g frame) x post) :
    Links σ frame (withReader g x) post :=
  h

theorem links_discard (h : Links σ frame x post) : Links σ frame (discard x) fun _ ↦ True := by
  show Links σ frame (Functor.map (fun _ ↦ PUnit.unit) x) _
  rw [map_eq_pure_bind]
  exact h.bind fun _ _ ↦ links_pure trivial

/-- A change of nothing that linking is about. -/
theorem links_modify {g : Lowering → Lowering} (hg : ∀ s, Linked σ s → Linked σ (g s))
    (hsame : ∀ s : Lowering, s.SameFunctions (g s)) : Links σ frame (modify g) fun _ ↦ True :=
  fun s hs ↦ ⟨hg s hs, hsame s, trivial⟩

/-- A loop each of whose rounds links. -/
theorem links_forIn {l : List α} {f : α → PUnit → M (ForInStep PUnit)}
    (h : ∀ a ∈ l, Links σ frame (f a ⟨⟩) fun r ↦ r = .yield ⟨⟩) :
    Links σ frame (forIn l PUnit.unit f) fun _ ↦ True := by
  induction l with
  | nil => exact links_pure trivial
  | cons a l ih =>
    rw [List.forIn_cons]
    refine (h a List.mem_cons_self).bind ?_
    rintro _ rfl
    exact ih fun b hb ↦ h b (List.mem_cons_of_mem a hb)

theorem links_mapM {l : List α} {f : α → M β} {post : β → Prop}
    (h : ∀ a ∈ l, Links σ frame (f a) post) :
    Links σ frame (l.mapM f) fun bs ↦ ∀ b ∈ bs, post b := by
  induction l with
  | nil => exact links_pure fun _ hb ↦ absurd hb List.not_mem_nil
  | cons a l ih =>
    rw [List.mapM_cons]
    refine (h a List.mem_cons_self).bind fun b hb ↦ ?_
    refine (ih fun a' ha' ↦ h a' (List.mem_cons_of_mem a ha')).bind fun bs hbs ↦ ?_
    exact links_pure (List.forall_mem_cons.2 ⟨hb, hbs⟩)

theorem links_each {l : List α} {f : α → M β} (h : ∀ a ∈ l, Links σ frame (f a) fun _ ↦ True) :
    Links σ frame (l.mapM f) fun _ ↦ True :=
  (links_mapM h).imp fun _ _ ↦ trivial

theorem links_foldlM {l : List α} {f : β → α → M β} {b : β}
    (h : ∀ a ∈ l, ∀ b, Links σ frame (f b a) fun _ ↦ True) :
    Links σ frame (l.foldlM f b) fun _ ↦ True := by
  induction l generalizing b with
  | nil => exact links_pure trivial
  | cons a l ih =>
    rw [List.foldlM_cons]
    exact (h a List.mem_cons_self b).bind fun b' _ ↦
      ih fun a' ha' ↦ h a' (List.mem_cons_of_mem a ha')

/-! ## Steps that end or ask -/

theorem links_internal (message : Text) : Links σ frame (internal message : M α) post :=
  links_throw

theorem links_internalHere (message : Text) : Links σ frame (internalHere message : M α) post :=
  links_read links_throw

/-- Nothing behind a broken invariant of the function happens. -/
theorem links_internalHere_bind (message : Text) {f : α → M β} {post : β → Prop} :
    Links σ frame (internalHere message >>= f) post := by
  intro s _ e he
  cases he

theorem links_expect {x : Option α} (h : ∀ a ∈ x, post a) : Links σ frame (expect x) post := by
  cases x with
  | some a => exact links_pure (h a rfl)
  | none => exact links_throw

theorem links_first (vs : List Var) : Links σ frame (first vs) fun _ ↦ True :=
  links_expect fun _ _ ↦ trivial

theorem links_program : Links σ frame program fun p ↦ p = σ.store.program :=
  fun s hs ↦ ⟨hs, .refl s, hs.laid.advances.program⟩

theorem links_primOf (v : Var) : Links σ frame (primOf v) fun _ ↦ True := by
  refine links_get fun s _ ↦ ?_
  cases s.vars[v]? with
  | some p => exact links_pure trivial s
  | none => exact links_internalHere _ s

theorem links_report (d : Diagnostic) : Links σ frame (report d) fun _ ↦ True :=
  links_modify (fun _ hs ↦ ⟨hs.laid, hs.table, hs.code⟩) fun _ ↦ ⟨rfl, rfl⟩

/-! ## Types -/

/-- Layouts have no part in the failures of the store. -/
theorem meets_onStore {x : TypeStore.M α} {Q : α → Lowering → Prop}
    (hx : Ensures x s.store fun a store ↦ Q a { s with store := store }) :
    Meets (onStore x frame) s LoweringFault.IsOther Q := by
  unfold onStore
  rw [Stage.meets_adapt, Stage.meets_zoom]
  refine hx.mono ?_ fun _ _ h ↦ h
  intro e _ f he
  cases he

/-- A computation over the store that advances it, with what is read off the store it leaves. -/
theorem links_onStore {x : TypeStore.M α} {R : α → TypeStore → Prop}
    (hx : ∀ store, Ensures x store fun a store' ↦ store.Advances store' ∧ R a store')
    (hpost : ∀ a store, σ.Laid store → R a store → post a) :
    Links σ frame (onStore x) post := by
  refine fun s hs ↦ meets_onStore ((hx s.store).imp ?_)
  rintro a store ⟨hadv, hR⟩
  have hlaid := hs.laid.mono hadv
  exact ⟨⟨hlaid, hs.table, hs.code⟩, ⟨rfl, rfl⟩, hpost a store hlaid hR⟩

theorem links_typeOf (h : Handle) : Links σ frame (typeOf h) (σ.Ready h) :=
  links_onStore (TypeStore.builds_getType h) fun _ store hlaid ht ↦ ⟨store, hlaid, ht⟩

/-- A type expression whose type is required stands for the handle that the plan knows. -/
theorem links_resolve {t : TypeId} (ht : σ.RequiresType t frame.scope) :
    Links σ frame (resolve t) fun h ↦ σ.store.denote t frame.scope = some h ∧ σ.Requires h := by
  obtain ⟨h, hh, hreq⟩ := ht
  refine links_read (links_onStore (fun _ ↦ TypeStore.ensures_resolve t frame.scope) ?_)
  intro h' store hlaid hh'
  cases hh'.symm.trans (hlaid.advances.denote hh)
  exact ⟨hh, hreq⟩

theorem links_ofLayout {x : Except Failure α} (h : ∃ a, x = .ok a) :
    Links σ frame (ofLayout x) fun _ ↦ True := by
  obtain ⟨a, rfl⟩ := h
  exact links_pure trivial

end Lowering

/-! ## Layouts that may be used -/

namespace ConcreteType

/-- The layout of the type may be used. -/
def Usable (t : ConcreteType) : Prop :=
  t.kind = .struct → t.resolved

variable {t : ConcreteType}

theorem Usable.entries (ht : t.Usable) : ∃ es, t.entries = .ok es := by
  unfold ConcreteType.entries
  split <;> first | exact ⟨_, rfl⟩ | exact ⟨t.layout, by simp [laidOut, ht ‹_›]⟩

theorem Usable.slots (ht : t.Usable) : ∃ ps, t.slots = .ok ps := by
  obtain ⟨es, hes⟩ := ht.entries
  exact ⟨es.map Slot.prim, by rw [ConcreteType.slots, hes]; rfl⟩

theorem Usable.slotCount (ht : t.Usable) : ∃ n, t.slotCount = .ok n := by
  obtain ⟨es, hes⟩ := ht.entries
  exact ⟨es.length, by rw [ConcreteType.slotCount, hes]; rfl⟩

theorem Usable.valueSize (ht : t.Usable) : ∃ n, t.valueSize = .ok n := by
  unfold ConcreteType.valueSize
  split <;> first | exact ⟨_, rfl⟩ | exact ⟨t.size, by simp [laidOut, ht ‹_›]⟩

end ConcreteType

theorem Scheduler.Ready.usable {σ : Scheduler} {h : Handle} {t : ConcreteType} (hσ : σ.Finished)
    (hh : σ.Requires h) (ht : σ.Ready h t) : t.Usable :=
  fun hstruct ↦ ht.isResolved hσ hh (by rw [hstruct]; rfl)

namespace Lowering

variable {α β : Type} {σ : Scheduler} {frame : Frame} {s : Lowering}

theorem links_slotsOf (hσ : σ.Finished) {h : Handle} (hh : σ.Requires h) :
    Links σ frame (slotsOf h) fun _ ↦ True :=
  (links_typeOf h).bind fun _ ht ↦ links_ofLayout (ht.usable hσ hh).slots

/-- The slots of the type of addresses are known wherever its handle comes from. -/
theorem linksFrom_slotsOf_pointer (hσ : σ.Finished) {h : Handle}
    (hh : s.store.handle? (primIdentity .pointer) [] = some h) :
    LinksFrom σ frame s (slotsOf h) fun _ ↦ True := by
  have htype : LinksFrom σ frame s (typeOf h) fun t ↦ t.kind = .primitive := by
    refine fun hs ↦ meets_onStore ((TypeStore.builds_getType h s.store).imp ?_)
    rintro t store ⟨hadv, ht⟩
    have hlaid := hs.laid.mono hadv
    have hkind := hσ.kindOf_pointer hlaid (hadv.handle? hh)
    have hfaithful := hlaid.advances.faithful hσ.faithful
    refine ⟨⟨hlaid, hs.table, hs.code⟩, ⟨rfl, rfl⟩, ?_⟩
    exact Except.ok.inj ((hfaithful.kindOf ht).symm.trans hkind)
  refine htype.bind fun t ht ↦ links_ofLayout (ConcreteType.Usable.slots ?_)
  intro hstruct
  rw [ht] at hstruct
  cases hstruct

/-! ## Instructions and blocks -/

theorem forall_mem_modify {xs : Array α} {P : α → Prop} {k : Nat} {f : α → α}
    (h : ∀ a ∈ xs, P a) (hf : ∀ a, P a → P (f a)) : ∀ a ∈ xs.modify k f, P a := by
  intro a ha
  obtain ⟨i, hi, rfl⟩ := Array.mem_iff_getElem.1 ha
  have hold := h _ (Array.getElem_mem (by simpa using hi : i < xs.size))
  rw [Array.getElem_modify]
  split
  · exact hf _ hold
  · exact hold

theorem links_emit {i : Instr} (hi : σ.Supplies i) : Links σ frame (emit i) fun _ ↦ True := by
  refine links_modify (fun s hs ↦ ⟨hs.laid, hs.table, ?_⟩) fun _ ↦ ⟨rfl, rfl⟩
  show ∀ b ∈ s.blocks.modify (s.current - 1) fun b ↦ { b with instrs := b.instrs ++ [i] }, _
  refine forall_mem_modify hs.code fun b hb j hj ↦ ?_
  obtain hj | hj := List.mem_append.1 hj
  · exact hb j hj
  · rw [List.mem_singleton.1 hj]
    exact hi

theorem links_newBlock (kind : BlockKind) : Links σ frame (newBlock kind) fun _ ↦ True := by
  refine fun s hs ↦ ⟨⟨hs.laid, hs.table, fun b hb ↦ ?_⟩, ⟨rfl, rfl⟩, trivial⟩
  obtain hb | rfl := Array.mem_push.1 hb
  · exact hs.code b hb
  · exact fun i hi ↦ absurd hi List.not_mem_nil

theorem links_openBasic : Links σ frame openBasic fun _ ↦ True :=
  (links_newBlock .basic).bind fun _ _ ↦
    links_modify (fun _ hs ↦ ⟨hs.laid, hs.table, hs.code⟩) fun _ ↦ ⟨rfl, rfl⟩

/-- Wiring a construct leaves the instructions of its block. -/
theorem links_updateBlock {id : Ir.BlockId} {f : Block → Block} (hf : ∀ b, (f b).instrs = b.instrs) :
    Links σ frame (updateBlock id f) fun _ ↦ True :=
  links_modify (fun _ hs ↦ ⟨hs.laid, hs.table,
    forall_mem_modify hs.code fun b hb i hi ↦ hb i (hf b ▸ hi)⟩) fun _ ↦ ⟨rfl, rfl⟩

theorem links_nested {x : M Unit} (hx : Links σ frame x fun _ ↦ True) :
    Links σ frame (nested x) fun _ ↦ True := by
  refine Links.bind (links_modify (fun _ hs ↦ ⟨hs.laid, hs.table, hs.code⟩) fun _ ↦ ⟨rfl, rfl⟩)
    fun _ _ ↦ ?_
  refine links_openBasic.bind fun _ _ ↦ hx.bind fun _ _ ↦ ?_
  exact fun s hs ↦ ⟨⟨hs.laid, hs.table, hs.code⟩, ⟨rfl, rfl⟩, trivial⟩

theorem links_newVar (p : Prim) : Links σ frame (newVar p) fun _ ↦ True :=
  fun _ hs ↦ ⟨⟨hs.laid, hs.table, hs.code⟩, ⟨rfl, rfl⟩, trivial⟩

theorem links_newVars (ps : List Prim) : Links σ frame (newVars ps) fun _ ↦ True :=
  links_each fun p _ ↦ links_newVar p

theorem links_constInto (v : Var) (p : Prim) (k : Int64) :
    Links σ frame (constInto v p k) fun _ ↦ True := by
  unfold constInto
  split
  · exact links_emit ⟨nofun, nofun⟩
  · exact links_emit ⟨nofun, nofun⟩

theorem links_constant (p : Prim) (k : Int64) : Links σ frame (constant p k) fun _ ↦ True :=
  (links_newVar p).bind fun v _ ↦ (links_constInto v p k).bind fun _ _ ↦ links_pure trivial

theorem links_address (zone : Ir.Zone) (index : Nat) :
    Links σ frame (address zone index) fun _ ↦ True :=
  (links_newVar .pointer).bind fun _ _ ↦
    Links.bind (links_emit ⟨nofun, nofun⟩) fun _ _ ↦ links_pure trivial

theorem links_operation {op : Ir.Opcode} (hcall : op ≠ .call) (href : op ≠ .funcRef)
    (storage result : Prim) (args : List Var) :
    Links σ frame (operation op storage result args) fun _ ↦ True :=
  (links_newVar result).bind fun _ _ ↦
    Links.bind (links_emit ⟨fun h ↦ absurd h hcall, fun h ↦ absurd h href⟩)
      fun _ _ ↦ links_pure trivial

theorem links_offset32 (n : Nat) : Links σ frame (offset32 n) fun _ ↦ True := by
  unfold offset32
  split
  · exact links_pure trivial
  · exact links_internal _

/-! ## Values -/

theorem links_place? (v : Value) : Links σ frame (place? v) fun _ ↦ True := by
  cases v with
  | direct | relative => exact links_pure trivial
  | global t index offset =>
    exact (links_address .global index).bind fun _ _ ↦ links_pure trivial

theorem links_placed {v : Value} {f : Var × UInt32 → M β} {post : β → Prop}
    (hf : ∀ p, Links σ frame (f p) post) : Links σ frame (do f (← expect (← place? v))) post :=
  (links_place? v).bind fun _ _ ↦
    Links.bind (links_expect fun _ _ ↦ trivial) fun p _ ↦ hf p

theorem links_readValue (hσ : σ.Finished) {v : Value} (hv : σ.Requires v.type) :
    Links σ frame (readValue v) fun _ ↦ True := by
  cases v with
  | direct t slots => exact links_pure trivial
  | relative t base offset | global t index offset =>
    refine links_placed fun p ↦ (links_typeOf t).bind fun type htype ↦ ?_
    refine (links_ofLayout (htype.usable hσ hv).entries).bind fun entries _ ↦ ?_
    refine links_each fun e _ ↦ ?_
    refine (links_newVar e.prim).bind fun _ _ ↦ (links_offset32 e.offset).bind fun _ _ ↦ ?_
    exact Links.bind (links_emit ⟨nofun, nofun⟩) fun _ _ ↦ links_pure trivial

theorem links_writeValue (hσ : σ.Finished) {dst : Value} (hdst : σ.Requires dst.type)
    (src : List Var) : Links σ frame (writeValue dst src) fun _ ↦ True := by
  cases dst with
  | direct t slots =>
    unfold writeValue
    dsimp only
    split
    · exact links_internalHere_bind _
    · refine Links.bind (links_forIn fun p _ ↦ ?_) fun _ _ ↦ links_pure trivial
      split
      · exact Links.bind (links_emit ⟨nofun, nofun⟩) fun _ _ ↦ links_pure rfl
      · exact links_pure rfl
  | relative t base offset | global t index offset =>
    refine links_placed fun p ↦ (links_typeOf t).bind fun type htype ↦ ?_
    refine (links_ofLayout (htype.usable hσ hdst).entries).bind fun entries _ ↦ ?_
    dsimp only
    split
    · exact links_internalHere_bind _
    · refine Links.bind (links_forIn fun q _ ↦ ?_) fun _ _ ↦ links_pure trivial
      refine (links_offset32 q.1.offset).bind fun _ _ ↦ ?_
      exact Links.bind (links_emit ⟨nofun, nofun⟩) fun _ _ ↦ links_pure rfl

theorem links_instanceMember (pointer : Var) {m : Member} (hm : σ.Requires m.type) :
    Links σ frame (instanceMember pointer m) fun v ↦ σ.Requires v.type :=
  (links_offset32 m.offset).bind fun _ _ ↦ links_pure hm

/-- A member of a value whose type is required is of a type that is required. -/
theorem links_selectMember (hσ : σ.Finished) {v : Value} (hv : σ.Requires v.type) (name : Text) :
    Links σ frame (selectMember v name) fun w ↦ σ.Requires w.type := by
  refine (links_typeOf v.type).bind fun t ht ↦ ?_
  cases hfound : t.member? name with
  | none => exact links_internal _
  | some m =>
    have hm : σ.Requires m.type := ht.requires_member hσ hv (List.mem_of_find?_eq_some hfound)
    dsimp only
    split
    · refine (links_readValue hσ hv).bind fun vars _ ↦ ?_
      exact (links_first vars).bind fun pointer _ ↦ links_instanceMember pointer hm
    · cases v with
      | direct t' slots =>
        refine (links_typeOf m.type).bind fun type htype ↦ ?_
        refine (links_ofLayout (htype.usable hσ hm).slotCount).bind fun count _ ↦ ?_
        split
        · exact links_pure hm
        · exact links_throw
      | relative t' base offset | global t' index offset =>
        exact (links_offset32 m.offset).bind fun _ _ ↦ links_pure hm
    · exact links_internal _

theorem links_deliver (hσ : σ.Finished) (vars : List Var) {h : Handle} (hh : σ.Requires h)
    {dst : Option Value} (hdst : ∀ d ∈ dst, σ.Requires d.type) :
    Links σ frame (deliver vars h dst) fun v ↦ σ.Requires v.type := by
  cases dst with
  | none => exact links_pure hh
  | some d =>
    exact (links_writeValue hσ (hdst d rfl) vars).bind fun _ _ ↦ links_pure (hdst d rfl)

theorem links_deliverValue (hσ : σ.Finished) (v : Value) (hv : σ.Requires v.type)
    {dst : Option Value} (hdst : ∀ d ∈ dst, σ.Requires d.type) :
    Links σ frame (deliverValue v dst) fun v ↦ σ.Requires v.type := by
  cases dst with
  | none => exact links_pure hv
  | some d =>
    refine (links_readValue hσ hv).bind fun vars _ ↦ ?_
    exact (links_writeValue hσ (hdst d rfl) vars).bind fun _ _ ↦ links_pure (hdst d rfl)

end Lowering

end WasmBackend
