import WasmBackend.Proofs.Lowering.Constructs

/-!
# Writing values

The primitive steps of lowering go on writing, and so do reading, writing and selecting on values
whose variables exist.
-/

namespace WasmBackend

open Ir (Instr Var)
open Stage (Ensures)

/-- The variables of a value exist. -/
def Value.Below (n : Nat) : Value → Prop
  | .direct _ slots => Lowering.VarsBelow n slots
  | .relative _ base _ => base < n
  | .global _ _ _ => True

theorem Value.Below.mono {n m : Nat} {v : Value} (h : v.Below n) (hm : n ≤ m) : v.Below m := by
  cases v with
  | direct _ slots => exact Lowering.VarsBelow.mono h hm
  | relative _ base _ => exact Nat.lt_of_lt_of_le h hm
  | global _ _ _ => trivial

/-- The variables of a place that may be missing exist. -/
def Value.BelowIfAny (n : Nat) (dst : Option Value) : Prop :=
  ∀ d ∈ dst, d.Below n

theorem Value.BelowIfAny.mono {n m : Nat} {dst : Option Value} (h : Value.BelowIfAny n dst)
    (hm : n ≤ m) : Value.BelowIfAny m dst :=
  fun d hd ↦ (h d hd).mono hm

theorem Value.belowIfAny_none {n : Nat} : Value.BelowIfAny n none :=
  fun _ hd ↦ absurd hd (by simp)

theorem Value.belowIfAny_some {n : Nat} {d : Value} (h : d.Below n) :
    Value.BelowIfAny n (some d) := by
  intro d' hd'
  rw [← Option.some.inj hd']
  exact h

/-- The variables of the receiver and of the locals exist. -/
structure Frame.Below (n : Nat) (frame : Frame) : Prop where
  self : Lowering.VarsBelow n frame.self
  locals : ∀ row ∈ frame.locals, Lowering.VarsBelow n row

theorem Frame.Below.mono {n m : Nat} {frame : Frame} (h : frame.Below n) (hm : n ≤ m) :
    frame.Below m :=
  ⟨h.self.mono hm, fun row hrow ↦ (h.locals row hrow).mono hm⟩

namespace Lowering

variable {α β : Type} {σ : Scope} {frame : Frame} {n : Nat}

/-! ## Steps that touch no block -/

/-- Whatever the state, the step touches no block. -/
def Quiet (x : M α) : Prop :=
  ∀ (frame : Frame) (s : Lowering), Ensures (x frame) s fun _ s' ↦ s.Aside s'

theorem Quiet.writes {x : M α} (h : Quiet x) : Writes σ frame n x fun _ _ ↦ True :=
  writes_of_aside fun s _ ↦ (h frame s).imp fun _ _ hs ↦ ⟨hs, trivial⟩

theorem quiet_pure (a : α) : Quiet (pure a) :=
  fun _ s ↦ Aside.refl s

theorem quiet_throw {e : LoweringFault} : Quiet (throw e : M α) :=
  fun _ _ ↦ trivial

theorem Quiet.bind {x : M α} {f : α → M β} (hx : Quiet x) (hf : ∀ a, Quiet (f a)) :
    Quiet (x >>= f) := by
  intro frame s
  show Ensures (x frame >>= fun a ↦ f a frame) s _
  rw [Ensures, Stage.meets_bind]
  refine (hx frame s).imp ?_
  intro a s₁ hs₁
  exact (hf a frame s₁).imp fun _ _ hs₂ ↦ hs₁.trans hs₂

theorem quiet_get {f : Lowering → M β} (h : ∀ s, Quiet (f s)) : Quiet (get >>= f) :=
  fun frame s ↦ h s frame s

theorem quiet_read {f : Frame → M β} (h : ∀ r, Quiet (f r)) : Quiet (read >>= f) :=
  fun frame s ↦ h frame frame s

theorem quiet_modify {g : Lowering → Lowering} (h : ∀ s : Lowering, s.Aside (g s)) :
    Quiet (modify g) :=
  fun _ s ↦ h s

theorem quiet_mapM {l : List α} {f : α → M β} (h : ∀ a ∈ l, Quiet (f a)) : Quiet (l.mapM f) := by
  induction l with
  | nil => exact quiet_pure []
  | cons a l ih =>
    rw [List.mapM_cons]
    refine (h a List.mem_cons_self).bind fun b ↦ ?_
    exact (ih fun c hc ↦ h c (List.mem_cons_of_mem a hc)).bind fun bs ↦ quiet_pure (b :: bs)

theorem quiet_onStore (x : TypeStore.M α) : Quiet (onStore x) := by
  intro frame s
  unfold onStore
  rw [Ensures, Stage.meets_adapt, Stage.meets_zoom]
  exact Stage.ensures_true.imp fun _ _ _ ↦ ⟨List.prefix_refl _, rfl, rfl, rfl, rfl, rfl⟩

theorem quiet_internalHere (message : Text) : Quiet (internalHere message : M α) :=
  quiet_read fun _ ↦ quiet_throw

theorem quiet_ofLayout (x : Except Failure α) : Quiet (ofLayout x) := by
  unfold ofLayout
  cases x with
  | ok a => exact quiet_pure a
  | error e => exact quiet_throw

theorem quiet_typeOf (h : Handle) : Quiet (typeOf h) :=
  quiet_onStore _

theorem quiet_resolve (t : TypeId) : Quiet (resolve t) :=
  quiet_read fun _ ↦ quiet_onStore _

theorem quiet_slotsOf (h : Handle) : Quiet (slotsOf h) :=
  (quiet_typeOf h).bind fun _ ↦ quiet_ofLayout _

theorem quiet_program : Quiet program :=
  quiet_get fun _ ↦ quiet_pure _

theorem quiet_report (d : Diagnostic) : Quiet (report d) :=
  quiet_modify fun _ ↦ ⟨List.prefix_refl _, rfl, rfl, rfl, rfl, rfl⟩

theorem quiet_primOf (v : Var) : Quiet (primOf v) := by
  refine quiet_get fun s ↦ ?_
  cases s.vars[v]? with
  | some p => exact quiet_pure p
  | none => exact quiet_internalHere _

theorem quiet_expect (x : Option α) : Quiet (expect x) := by
  cases x with
  | some a => exact quiet_pure a
  | none => exact quiet_throw

theorem quiet_offset32 (k : Nat) : Quiet (offset32 k) := by
  unfold offset32
  split
  · exact quiet_pure _
  · exact quiet_throw

/-- What is expected is there. -/
theorem writes_expect {x : Option α} {post : α → Nat → Prop}
    (h : ∀ a ∈ x, ∀ m, n ≤ m → post a m) : Writes σ frame n (expect x) post := by
  cases x with
  | some a => exact writes_pure (h a rfl)
  | none => exact writes_throw

theorem writes_first {vs : List Var} (h : VarsBelow n vs) :
    Writes σ frame n (first vs) fun v m ↦ v < m := by
  refine writes_expect fun v hv m hm ↦ ?_
  exact Nat.lt_of_lt_of_le (h v (List.mem_of_head? hv)) hm

/-! ## New variables and plain instructions -/

theorem aside_push (s : Lowering) (p : Prim) : s.Aside { s with vars := s.vars.push p } :=
  ⟨by simp, rfl, rfl, rfl, rfl, rfl⟩

theorem ensures_newVar (p : Prim) (frame : Frame) (s : Lowering) :
    Ensures (newVar p frame) s fun v s' ↦ s.Aside s' ∧ v < s'.vars.size := by
  refine ⟨aside_push s p, ?_⟩
  simp

theorem ensures_newVars (ps : List Prim) (frame : Frame) (s : Lowering) :
    Ensures (newVars ps frame) s fun vs s' ↦ s.Aside s' ∧ VarsBelow s'.vars.size vs := by
  unfold newVars
  induction ps generalizing s with
  | nil => exact ⟨Aside.refl s, varsBelow_nil⟩
  | cons p ps ih =>
    rw [List.mapM_cons]
    show Ensures (newVar p frame >>= fun v ↦ ps.mapM newVar frame >>= fun vs ↦ pure (v :: vs)) s _
    rw [Ensures, Stage.meets_bind]
    refine (ensures_newVar p frame s).imp ?_
    rintro v s₁ ⟨hs₁, hv⟩
    rw [Stage.meets_bind]
    refine (ih s₁).imp ?_
    rintro vs s₂ ⟨hs₂, hvs⟩
    exact ⟨hs₁.trans hs₂, varsBelow_cons.2 ⟨Nat.lt_of_lt_of_le hv hs₂.vars_le, hvs⟩⟩

theorem writes_newVar (p : Prim) : Writes σ frame n (newVar p) fun v m ↦ v < m :=
  writes_of_aside fun s _ ↦ ensures_newVar p frame s

theorem writes_newVars (ps : List Prim) :
    Writes σ frame n (newVars ps) fun vs m ↦ VarsBelow m vs :=
  writes_of_aside fun s _ ↦ ensures_newVars ps frame s

theorem writes_constInto {v : Var} (hv : v < n) (p : Prim) (k : Int64) :
    Writes σ frame n (constInto v p k) fun _ _ ↦ True := by
  unfold constInto
  split
  · exact writes_emit ⟨rfl, nofun, rfl, varsBelow_singleton.2 hv, varsBelow_nil⟩
  · exact writes_emit ⟨rfl, nofun, rfl, varsBelow_singleton.2 hv, varsBelow_nil⟩

theorem writes_constant (p : Prim) (k : Int64) :
    Writes σ frame n (constant p k) fun v m ↦ v < m := by
  refine (writes_newVar p).bind fun v m _ hv ↦ ?_
  refine (writes_constInto hv p k).bind fun _ i hi _ ↦ ?_
  exact writes_pure fun j hj ↦ Nat.lt_of_lt_of_le hv (Nat.le_trans hi hj)

theorem writes_address (zone : Ir.Zone) (index : Nat) :
    Writes σ frame n (address zone index) fun v m ↦ v < m := by
  refine (writes_newVar .pointer).bind fun v m _ hv ↦ ?_
  refine Writes.bind (writes_emit ⟨rfl, nofun, rfl, varsBelow_singleton.2 hv, varsBelow_nil⟩)
    fun _ i hi _ ↦ ?_
  exact writes_pure fun j hj ↦ Nat.lt_of_lt_of_le hv (Nat.le_trans hi hj)

theorem writes_operation {op : Ir.Opcode} (hbranch : ({ op := op } : Instr).isBranch = false)
    (hphi : op ≠ .phi) (storage result : Prim) {args : List Var} (hargs : VarsBelow n args) :
    Writes σ frame n (operation op storage result args) fun v m ↦ v < m := by
  refine (writes_newVar result).bind fun v m hm hv ↦ ?_
  refine Writes.bind (writes_emit ⟨hbranch, hphi, rfl, varsBelow_singleton.2 hv, hargs.mono hm⟩)
    fun _ i hi _ ↦ ?_
  exact writes_pure fun j hj ↦ Nat.lt_of_lt_of_le hv (Nat.le_trans hi hj)

/-! ## Values -/

theorem writes_place? {v : Value} (hv : v.Below n) :
    Writes σ frame n (place? v) fun p m ↦ ∀ q ∈ p, q.1 < m := by
  cases v with
  | direct t slots => exact writes_pure fun _ _ q hq ↦ absurd hq (by simp)
  | relative t base offset =>
    refine writes_pure fun m hm q hq ↦ ?_
    rw [← Option.some.inj hq]
    exact Nat.lt_of_lt_of_le hv hm
  | global t index offset =>
    refine (writes_address .global index).bind fun base m _ hbase ↦ writes_pure fun k hk q hq ↦ ?_
    rw [← Option.some.inj hq]
    exact Nat.lt_of_lt_of_le hbase hk

theorem writes_placed {v : Value} (hv : v.Below n) {f : Var × UInt32 → M β}
    {post : β → Nat → Prop} (hf : ∀ p m, n ≤ m → p.1 < m → Writes σ frame m (f p) post) :
    Writes σ frame n (do f (← expect (← place? v))) post := by
  refine (writes_place? hv).bind fun place m hm hplace ↦ ?_
  refine (writes_expect fun p hp i hi ↦ Nat.lt_of_lt_of_le (hplace p hp) hi).bind
    fun p k hk hp ↦ ?_
  exact hf p k (Nat.le_trans hm hk) hp

theorem writes_load {base : Var} (hbase : base < n) (offset : UInt32) (entries : List Slot) :
    Writes σ frame n
      (entries.mapM fun e => do
        let dst ← newVar e.prim
        let at32 ← offset32 e.offset
        emit { op := .load, dst := [dst], args := [base], storage := e.prim,
               offset := offset + at32 }
        return dst) fun vs m ↦ VarsBelow m vs := by
  refine writes_mapM (fun v m k hm hv ↦ Nat.lt_of_lt_of_le hv hm) fun e _ m hm ↦ ?_
  refine (writes_newVar e.prim).bind fun v i hi hv ↦ ?_
  refine (quiet_offset32 e.offset).writes.bind fun at32 j hj _ ↦ ?_
  have hv' : v < j := Nat.lt_of_lt_of_le hv hj
  have hbase' : base < j := Nat.lt_of_lt_of_le hbase (Nat.le_trans hm (Nat.le_trans hi hj))
  refine Writes.bind (writes_emit ⟨rfl, nofun, rfl, varsBelow_singleton.2 hv',
    varsBelow_singleton.2 hbase'⟩) fun _ k hk _ ↦ ?_
  exact writes_pure fun l hl ↦ Nat.lt_of_lt_of_le hv' (Nat.le_trans hk hl)

theorem writes_readValue {v : Value} (hv : v.Below n) :
    Writes σ frame n (readValue v) fun vs m ↦ VarsBelow m vs := by
  cases v with
  | direct t slots => exact writes_pure fun m hm ↦ VarsBelow.mono hv hm
  | relative t base offset | global t index offset =>
    refine writes_placed hv fun p m _ hp ↦ ?_
    refine (quiet_typeOf t).writes.bind fun type i hi _ ↦ ?_
    refine (quiet_ofLayout type.entries).writes.bind fun entries j hj _ ↦ ?_
    exact writes_load (Nat.lt_of_lt_of_le hp (Nat.le_trans hi hj)) p.2 entries

/-- A broken invariant of the function ends the step. -/
theorem writes_internalHere (message : Text) {post : α → Nat → Prop} :
    Writes σ frame n (internalHere message) post := by
  intro us s _ _
  exact trivial

/-- Nor does anything behind it happen. -/
theorem writes_internalHere_bind (message : Text) {f : α → M β} {post : β → Nat → Prop} :
    Writes σ frame n (internalHere message >>= f) post := by
  intro us s _ _
  exact trivial

theorem writes_store {base : Var} (hbase : base < n) (offset : UInt32) {pairs : List (Slot × Var)}
    (hpairs : ∀ p ∈ pairs, p.2 < n) :
    Writes σ frame n
      (forIn pairs PUnit.unit fun (e, v) _ => do
        let at32 ← offset32 e.offset
        emit { op := .store, args := [base, v], storage := e.prim, offset := offset + at32 }
        pure (.yield PUnit.unit)) fun _ _ ↦ True := by
  refine writes_forIn fun p hp m hm ↦ ?_
  refine (quiet_offset32 p.1.offset).writes.bind fun at32 i hi _ ↦ ?_
  have hle := Nat.le_trans hm hi
  have hargs : VarsBelow i [base, p.2] := varsBelow_cons.2
    ⟨Nat.lt_of_lt_of_le hbase hle, varsBelow_singleton.2 (Nat.lt_of_lt_of_le (hpairs p hp) hle)⟩
  refine Writes.bind (writes_emit ⟨rfl, nofun, rfl, varsBelow_nil, hargs⟩) fun _ j hj _ ↦ ?_
  exact writes_pure fun _ _ ↦ rfl

theorem writes_writeValue {dst : Value} (hdst : dst.Below n) {src : List Var}
    (hsrc : VarsBelow n src) : Writes σ frame n (writeValue dst src) fun _ _ ↦ True := by
  cases dst with
  | direct t slots =>
    unfold writeValue
    dsimp only
    split
    · exact writes_internalHere_bind _
    · refine Writes.bind (writes_forIn fun p hp m hm ↦ ?_) fun _ _ _ _ ↦
        writes_pure fun _ _ ↦ trivial
      obtain ⟨hd, hv⟩ := List.of_mem_zip hp
      have hd' := varsBelow_singleton.2 (Nat.lt_of_lt_of_le (hdst _ hd) hm)
      have hv' := varsBelow_singleton.2 (Nat.lt_of_lt_of_le (hsrc _ hv) hm)
      split
      · exact Writes.bind (writes_emit ⟨rfl, nofun, rfl, hd', hv'⟩) fun _ _ _ _ ↦
          writes_pure fun _ _ ↦ rfl
      · exact writes_pure fun _ _ ↦ rfl
  | relative t base offset | global t index offset =>
    refine writes_placed hdst fun p m hm hp ↦ ?_
    refine (quiet_typeOf t).writes.bind fun type i hi _ ↦ ?_
    refine (quiet_ofLayout type.entries).writes.bind fun entries j hj _ ↦ ?_
    have hpairs : ∀ q ∈ entries.zip src, q.2 < j := by
      intro q hq
      exact Nat.lt_of_lt_of_le (hsrc _ (List.of_mem_zip hq).2)
        (Nat.le_trans hm (Nat.le_trans hi hj))
    dsimp only
    split
    · exact writes_internalHere_bind _
    · exact (writes_store (Nat.lt_of_lt_of_le hp (Nat.le_trans hi hj)) p.2 hpairs).bind
        fun _ _ _ _ ↦ writes_pure fun _ _ ↦ trivial

theorem writes_instanceMember {pointer : Var} (hpointer : pointer < n) (m : Member) :
    Writes σ frame n (instanceMember pointer m) fun v k ↦ v.Below k := by
  refine (quiet_offset32 m.offset).writes.bind fun at32 i hi _ ↦ writes_pure fun k hk ↦ ?_
  exact Nat.lt_of_lt_of_le hpointer (Nat.le_trans hi hk)

theorem writes_selectMember {v : Value} (hv : v.Below n) (name : Text) :
    Writes σ frame n (selectMember v name) fun w m ↦ w.Below m := by
  refine (quiet_typeOf v.type).writes.bind fun t i hi _ ↦ ?_
  have hv' := hv.mono hi
  cases t.member? name with
  | none => exact writes_throw
  | some m =>
    dsimp only
    split
    · refine (writes_readValue hv').bind fun vars j _ hvars ↦ ?_
      exact (writes_first hvars).bind fun pointer k _ hpointer ↦ writes_instanceMember hpointer m
    · cases v with
      | direct t' slots =>
        refine (quiet_typeOf m.type).writes.bind fun type j hj _ ↦ ?_
        refine (quiet_ofLayout type.slotCount).writes.bind fun count k hk _ ↦ ?_
        split
        · refine writes_pure fun l hl w hw ↦ ?_
          have hslot : w ∈ slots := List.mem_of_mem_drop (List.mem_of_mem_take hw)
          exact Nat.lt_of_lt_of_le (hv' w hslot) (Nat.le_trans hj (Nat.le_trans hk hl))
        · exact writes_throw
      | relative t' base offset =>
        refine (quiet_offset32 m.offset).writes.bind fun at32 j hj _ ↦ writes_pure fun k hk ↦ ?_
        exact Nat.lt_of_lt_of_le hv' (Nat.le_trans hj hk)
      | global t' index offset =>
        refine (quiet_offset32 m.offset).writes.bind fun at32 j _ _ ↦ writes_pure fun _ _ ↦ ?_
        trivial
    · exact writes_throw

theorem writes_deliver {vars : List Var} (hvars : VarsBelow n vars) (h : Handle)
    {dst : Option Value} (hdst : Value.BelowIfAny n dst) :
    Writes σ frame n (deliver vars h dst) fun v m ↦ v.Below m := by
  cases dst with
  | none => exact writes_pure fun m hm ↦ VarsBelow.mono hvars hm
  | some d =>
    have hd := hdst d rfl
    refine (writes_writeValue hd hvars).bind fun _ m hm _ ↦ ?_
    exact writes_pure fun k hk ↦ hd.mono (Nat.le_trans hm hk)

theorem writes_deliverValue {v : Value} (hv : v.Below n) {dst : Option Value}
    (hdst : Value.BelowIfAny n dst) :
    Writes σ frame n (deliverValue v dst) fun w m ↦ w.Below m := by
  cases dst with
  | none => exact writes_pure fun m hm ↦ hv.mono hm
  | some d =>
    have hd := hdst d rfl
    refine (writes_readValue hv).bind fun vars m hm hvars ↦ ?_
    refine (writes_writeValue (hd.mono hm) hvars).bind fun _ k hk _ ↦ ?_
    exact writes_pure fun i hi ↦ hd.mono (Nat.le_trans hm (Nat.le_trans hk hi))

end Lowering

end WasmBackend
