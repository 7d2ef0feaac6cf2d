import WasmBackend.Proofs.Lowering.Expressions

/-!
# Writing statements

Lowering a list of statements goes on writing the row it finds: straight-line statements at the end
of the current block, branches and constructs with a new block behind them.
-/

namespace WasmBackend.Lowering

open Ir (BlockId Forest Var)
open Stage (Ensures)

variable {σ : Scope} {frame : Frame} {n : Nat} {sub : List StmtId → M Unit}

theorem writes_openBasic : Writes σ frame n openBasic fun _ _ ↦ True := by
  intro us s hw _
  obtain ⟨hw', hc⟩ := hw.close hw.built_nil (Nat.zero_le 1) Forest.finished_nil
  exact ⟨_, hw', hc, trivial⟩

/-! ## Straight-line statements -/

/-- The slots behind the first are returned through scratch memory. -/
theorem writes_scratchStores {pairs : List (Var × Nat)} (hpairs : ∀ p ∈ pairs, p.1 < n) :
    Writes σ frame n
      (forIn pairs PUnit.unit fun (w, k) _ => do
        let p ← primOf w
        let slot ← scratchSlot (k + 1) p
        let base ← address .scratch slot
        emit { op := .store, args := [base, w], storage := p }
        pure (.yield PUnit.unit)) fun _ _ ↦ True := by
  refine writes_forIn fun q hq m hm ↦ ?_
  refine (quiet_primOf q.1).writes.bind fun p i hi _ ↦ ?_
  refine (quiet_scratchSlot (q.2 + 1) p).writes.bind fun slot j hj _ ↦ ?_
  refine (writes_address .scratch slot).bind fun base k hk hbase ↦ ?_
  have hle : n ≤ k := Nat.le_trans hm (Nat.le_trans hi (Nat.le_trans hj hk))
  have hargs := varsBelow_cons.2
    ⟨hbase, varsBelow_singleton.2 (Nat.lt_of_lt_of_le (hpairs q hq) hle)⟩
  refine Writes.bind (writes_emit ⟨rfl, nofun, rfl, varsBelow_nil, hargs⟩) fun _ l _ _ ↦ ?_
  exact writes_pure fun _ _ ↦ rfl

theorem writes_lowerReturn {vars : List Var} (hvars : VarsBelow n vars) :
    Writes σ frame n (lowerReturn vars) fun _ _ ↦ True := by
  cases vars with
  | nil => exact writes_emit ⟨rfl, nofun, rfl, varsBelow_nil, varsBelow_nil⟩
  | cons v rest =>
    obtain ⟨hv, hrest⟩ := varsBelow_cons.1 hvars
    have hpairs : ∀ p ∈ rest.zipIdx, p.1 < n := fun p hp ↦ hrest p.1 (List.fst_mem_of_mem_zipIdx hp)
    refine (writes_scratchStores hpairs).bind fun _ m hm _ ↦ ?_
    exact writes_emit
      ⟨rfl, nofun, rfl, varsBelow_nil, varsBelow_singleton.2 (Nat.lt_of_lt_of_le hv hm)⟩

theorem writes_targetWithin (depth : Nat) {n : Nat} (hframe : frame.Below n) (id : ExprId) :
    Writes σ frame n (targetWithin depth id) fun v m ↦ v.Below m := by
  induction depth generalizing n id with
  | zero => exact writes_throw
  | succ depth ih =>
    refine quiet_program.writes.bind fun p i hi _ ↦ ?_
    refine (quiet_expect (p.expr? id)).writes.bind fun e j hj _ ↦ ?_
    refine (quiet_resolve e.type).writes.bind fun type k hk _ ↦ ?_
    have hframe := hframe.mono (Nat.le_trans hi (Nat.le_trans hj hk))
    split
    · refine (writes_localVars hframe e.loc).bind fun vars l hl hvars ↦ writes_pure fun m hm ↦ ?_
      exact VarsBelow.mono hvars hm
    · exact writes_read (writes_pure fun m hm ↦ hframe.self.mono hm)
    · exact (quiet_globalIndex e.decl).writes.bind fun _ _ _ _ ↦ writes_pure fun _ _ ↦ trivial
    · refine writes_operand subWrites_lowerExpr hframe e.x fun base l hl hbase ↦ ?_
      exact writes_pure fun m hm ↦ Nat.lt_of_lt_of_le hbase hm
    · refine (quiet_exprType e.x).writes.bind fun owner l hl _ ↦ ?_
      refine (quiet_typeOf owner).writes.bind fun t m hm _ ↦ ?_
      have hframe := hframe.mono (Nat.le_trans hl hm)
      split
      · exact (subWrites_lowerExpr.apply hframe e.x).bind fun v _ _ hv ↦
          writes_selectMember hv e.name
      · exact (ih hframe e.x).bind fun v _ _ hv ↦ writes_selectMember hv e.name
    · exact writes_internalHere _

theorem writes_assignTarget (hframe : frame.Below n) (id : ExprId) :
    Writes σ frame n (assignTarget id) fun v m ↦ v.Below m :=
  quiet_program.writes.bind fun _ _ hi _ ↦ writes_targetWithin _ (hframe.mono hi) id

theorem quiet_frameLocals : Quiet frameLocals := by
  refine quiet_read fun r ↦ ?_
  split
  · exact quiet_pure _
  · exact quiet_program.bind fun _ ↦ quiet_pure _

theorem writes_clear {vars : List Var} (hvars : VarsBelow n vars) :
    Writes σ frame n (clear vars) fun _ _ ↦ True := by
  refine Writes.bind (writes_forIn fun v hv m hm ↦ ?_) fun _ _ _ _ ↦ writes_pure fun _ _ ↦ trivial
  refine (quiet_primOf v).writes.bind fun p i hi _ ↦ ?_
  refine (writes_constInto (Nat.lt_of_lt_of_le (hvars v hv) (Nat.le_trans hm hi)) p 0).bind
    fun _ _ _ _ ↦ ?_
  exact writes_pure fun _ _ ↦ rfl

theorem writes_lowerBind (hframe : frame.Below n) (s : Stmt) :
    Writes σ frame n (lowerBind s) fun _ _ ↦ True := by
  refine quiet_frameLocals.writes.bind fun locals i hi _ ↦ ?_
  refine (quiet_expect locals[s.loc.toNat]?).writes.bind fun l j hj _ ↦ ?_
  refine (quiet_resolve l.type).writes.bind fun type k hk _ ↦ ?_
  have hframe := hframe.mono (Nat.le_trans hi (Nat.le_trans hj hk))
  refine (writes_localVars hframe s.loc).bind fun vars m hm hvars ↦ ?_
  split
  · exact writes_clear hvars
  · exact subWrites_lowerExpr.into (d := .direct type vars) (hframe.mono hm) s.expr hvars

theorem writes_lowerAssign (hframe : frame.Below n) (s : Stmt) :
    Writes σ frame n (lowerAssign s) fun _ _ ↦ True := by
  refine (writes_assignTarget hframe s.target).bind fun target i hi htarget ↦ ?_
  refine quiet_program.writes.bind fun p j hj _ ↦ ?_
  have hframe := hframe.mono (Nat.le_trans hi hj)
  have htarget := htarget.mono hj
  dsimp only
  split
  · refine (subWrites_lowerExpr.apply hframe s.expr).bind fun v k hk hv ↦ ?_
    refine (writes_readValue hv).bind fun vars l hl hvars ↦ ?_
    exact writes_writeValue (htarget.mono (Nat.le_trans hk hl)) hvars
  · exact subWrites_lowerExpr.into hframe s.expr htarget

/-! ## Control flow -/

/-- Lowering nested lists of statements goes on writing, inside whatever constructs. -/
def ListWrites (sub : List StmtId → M Unit) : Prop :=
  ∀ (σ : Scope) (frame : Frame) (n : Nat) (ids : List StmtId), frame.Below n →
    Writes σ frame n (sub ids) fun _ _ ↦ True

theorem writes_lowerCond (h : ListWrites sub) (hframe : frame.Below n) (s : Stmt) :
    Writes σ frame n (lowerCond sub s) fun _ _ ↦ True := by
  refine writes_operand subWrites_lowerExpr hframe s.expr fun cond m hm hcond ↦ ?_
  have hframe := hframe.mono hm
  have hend : Writes σ frame m (pure PUnit.unit) fun _ _ ↦ True :=
    writes_pure fun _ _ ↦ trivial
  dsimp only
  split
  · have hwrites := writes_cond hcond (fun block ↦ h _ frame m s.body hframe) hend
    rw [bind_pure_unit] at hwrites
    exact hwrites
  · have hwrites := writes_choice hcond (fun block ↦ h _ frame m s.body hframe)
      (fun block ↦ h _ frame m s.otherwise hframe) hend
    rw [bind_pure_unit] at hwrites
    exact hwrites

theorem branchViolations_loop {i : Ir.Instr} {b : BlockId}
    (h : σ.find? (fun p ↦ p.1 = i.target) = some (i.target, .loop)) :
    Ir.Function.branchViolations b σ i = [] := by
  unfold Ir.Function.branchViolations
  rw [h]
  simp

theorem writes_lowerLoop (h : ListWrites sub) (hframe : frame.Below n) (s : Stmt) :
    Writes σ frame n (lowerLoop sub s) fun _ _ ↦ True := by
  have hinner (block : BlockId) : Writes ((block, .loop) :: σ) frame n (do
      let cond ← first (← rvalue lowerExpr s.expr)
      let leave ← newVar .bool
      let p ← primOf cond
      emit { op := .eqz, dst := [leave], args := [cond], storage := p }
      emit { op := .exitIf, args := [leave], target := block }
      openBasic
      sub s.body) fun _ _ ↦ True := by
    refine writes_operand subWrites_lowerExpr hframe s.expr fun cond i hi hcond ↦ ?_
    refine (writes_newVar .bool).bind fun leave j hj hleave ↦ ?_
    refine (quiet_primOf cond).writes.bind fun p k hk _ ↦ ?_
    have hleave := varsBelow_singleton.2 (Nat.lt_of_lt_of_le hleave hk)
    have hcond := varsBelow_singleton.2 (Nat.lt_of_lt_of_le hcond (Nat.le_trans hj hk))
    refine Writes.bind (writes_emit ⟨rfl, nofun, rfl, hleave, hcond⟩) fun _ l hl _ ↦ ?_
    refine writes_branch (fun _ _ ↦ branchViolations_loop (by simp)) nofun rfl varsBelow_nil
      (hleave.mono hl) ?_
    exact h _ frame l s.body (hframe.mono (by omega))
  have hend : Writes σ frame n (pure PUnit.unit) fun _ _ ↦ True :=
    writes_pure fun _ _ ↦ trivial
  have hwrites := writes_loop hinner hend
  rw [bind_pure_unit] at hwrites
  exact hwrites

theorem writes_lowerJump {op : Ir.Opcode} (hop : op ≠ .phi) (s : Stmt) :
    Writes σ frame n (lowerJump op s) fun _ _ ↦ True := by
  intro us st hw hn
  have hloops := hw.loops
  unfold lowerJump
  change Ensures ((get : Step Lowering) >>= _) st _
  rw [Ensures, Stage.meets_bind, Stage.meets_get]
  cases hst : st.loops with
  | nil => exact trivial
  | cons target outer =>
    have hfind := hloops target (by rw [hst]; exact List.mem_cons_self)
    have hend : Writes σ frame n (pure PUnit.unit) fun _ _ ↦ True :=
      writes_pure fun _ _ ↦ trivial
    have hwrites := writes_branch (i := { op := op, target := target })
      (fun _ _ ↦ branchViolations_loop hfind) hop rfl varsBelow_nil varsBelow_nil hend
    rw [bind_pure_unit] at hwrites
    exact hwrites us st hw hn

theorem writes_stmtStep (h : ListWrites sub) (hframe : frame.Below n) (s : Stmt) :
    Writes σ frame n (stmtStep sub s) fun _ _ ↦ True := by
  unfold stmtStep
  split
  case h_1 => exact writes_discard (subWrites_lowerExpr.apply hframe s.expr)
  case h_2 => exact writes_lowerBind hframe s
  case h_3 => exact writes_lowerAssign hframe s
  case h_4 => exact writes_lowerCond h hframe s
  case h_5 => exact writes_lowerLoop h hframe s
  case h_6 => exact writes_lowerJump (by nofun) s
  case h_7 => exact writes_lowerJump (by nofun) s
  case h_8 =>
    refine writes_read ?_
    dsimp only
    split
    · exact (writes_lowerReturn hframe.self).bind fun _ _ _ _ ↦ writes_openBasic
    · split
      · exact (writes_lowerReturn varsBelow_nil).bind fun _ _ _ _ ↦ writes_openBasic
      · refine (writes_rvalue subWrites_lowerExpr hframe s.expr).bind fun vars _ _ hvars ↦ ?_
        exact (writes_lowerReturn hvars).bind fun _ _ _ _ ↦ writes_openBasic
  case h_9 => exact writes_pure fun _ _ ↦ trivial

theorem listWrites_stmtsWithin (depth : Nat) : ListWrites (stmtsWithin depth) := by
  induction depth with
  | zero =>
    intro σ frame n ids _
    exact writes_throw
  | succ depth ih =>
    intro σ frame n ids hframe
    refine Writes.bind (writes_forIn fun id _ m hm ↦ ?_) fun _ _ _ _ ↦
      writes_pure fun _ _ ↦ trivial
    refine quiet_program.writes.bind fun p i hi _ ↦ ?_
    split
    · exact writes_internalHere_bind _
    · rename_i s _
      refine (writes_stmtStep ih (hframe.mono (Nat.le_trans hm hi)) s).bind fun _ _ _ _ ↦ ?_
      exact writes_pure fun _ _ ↦ rfl

/-- Lowering a list of statements goes on writing. -/
theorem listWrites_lowerStmts : ListWrites lowerStmts := by
  intro σ frame n ids hframe
  refine quiet_program.writes.bind fun p i hi _ ↦ ?_
  exact listWrites_stmtsWithin _ σ frame i ids (hframe.mono hi)

end WasmBackend.Lowering
