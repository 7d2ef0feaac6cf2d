import WasmBackend.Proofs.Lowering.Putting
import WasmBackend.Proofs.Lowering.Underway

/-!
# Logical operators short-circuit

The code of `&&` and `||` is a breakable block: the left operand becomes the result, a branch leaves
the block where that decides it, and otherwise the right operand becomes the result.  Operands may be
logical operators again, so that an expression is a tree of operators over operands that are not.
Running its code is evaluating the tree from left to right, and the code of a right operand runs only
where the left one has not decided.
-/

namespace WasmBackend

open Ir (BlockId BlockKind Exit Forest Instr Machine Run State Var copyInto runInstrs)
open Stage (Ensures)

namespace Ir

variable {V W : Type} {m : Machine V W}

/-- A breakable block lets through what does not leave it. -/
theorem runBreakable_of_within {id : BlockId} {body : Run V W} {st t : State V W} {exit : Exit V}
    (h : body st = (t, exit)) (hwithin : exit.Within fun _ ↦ False) :
    runBreakable id body st = (t, exit) := by
  unfold runBreakable
  rw [h]
  cases exit with
  | exit target => exact hwithin.elim
  | _ => rfl

theorem runBreakable_of_exit {id : BlockId} {body : Run V W} {st t : State V W}
    (h : body st = (t, .exit id)) : runBreakable id body st = (t, .fall) := by
  unfold runBreakable
  rw [h]
  exact if_pos rfl

theorem run_copy (hm : m.Copies) (d v : Var) (st : State V W) :
    runInstrs m [copyInto d v] st = (st.set d (st.vars v), .fall) :=
  Run.andThen_of_fall (run_copyInto hm d v st)

/-- Negating a truth value gives the other one. -/
def Machine.Negates (m : Machine V W) : Prop :=
  ∀ x b w, m.test x = some b →
    ∃ y, m.step { op := .eqz, storage := .bool } [x] w = .done [y] w ∧ m.test y = some !b

theorem negates_mover : mover.Negates := by
  intro x b w hx
  cases hx
  refine ⟨if x = 0 then 1 else 0, rfl, ?_⟩
  by_cases h : x = 0 <;> simp [mover, h]

/-- The instructions that leave a block where `x` decides the result: for `&&` where it is false,
for `||` where it is true. -/
def decideBy (conj : Bool) (p : Prim) (t x : Var) (block : BlockId) : List Instr :=
  if conj then
    [{ op := .eqz, dst := [t], args := [x], storage := p },
      { op := .exitIf, args := [t], target := block }]
  else [{ op := .exitIf, args := [x], target := block }]

theorem run_leaveIf {x : Var} {v : Bool} {st : State V W} (hx : m.test (st.vars x) = some v)
    (block : BlockId) :
    runInstrs m [{ op := .exitIf, args := [x], target := block }] st
      = (st, if v then .exit block else .fall) := by
  have hrun : Instr.run m { op := .exitIf, args := [x], target := block } st
      = (st, if v then .exit block else .fall) := by
    simp only [Instr.run, Instr.isControl, Instr.direct, Instr.leave, reduceCtorEq, if_false,
      if_true, hx]
    cases v <;> rfl
  rw [runInstrs, Run.andThen, hrun]
  cases v <;> rfl

theorem run_negate (hm : m.Negates) {t x : Var} {v : Bool} {st : State V W}
    (hx : m.test (st.vars x) = some v) :
    ∃ y, m.test y = some !v ∧
      Instr.run m { op := .eqz, dst := [t], args := [x], storage := .bool } st
        = (st.set t y, .fall) := by
  obtain ⟨y, hstep, hy⟩ := hm (st.vars x) v st.world hx
  exact ⟨y, hy, Instr.run_of_done nofun rfl rfl rfl hstep⟩

/-- The block is left where the truth value is not the one that the operator goes on with. -/
theorem exists_run_decideBy (hm : m.Negates) (conj : Bool) (t : Var) {v : Bool} {x : Var}
    {st : State V W} (hx : m.test (st.vars x) = some v) (block : BlockId) :
    ∃ st', st'.Agrees (fun w ↦ ¬(conj = true ∧ w = t)) st ∧
      runInstrs m (decideBy conj .bool t x block) st
        = (st', if v = conj then .fall else .exit block) := by
  cases conj with
  | false =>
    refine ⟨st, .refl st, (run_leaveIf hx block).trans ?_⟩
    cases v <;> rfl
  | true =>
    obtain ⟨y, hy, hnegate⟩ := run_negate (t := t) hm hx
    refine ⟨st.set t y, ⟨rfl, rfl, fun w hw ↦ if_neg fun heq ↦ hw ⟨rfl, heq⟩⟩, ?_⟩
    have htest : m.test ((st.set t y).vars t) = some !v := by
      rw [show (st.set t y).vars t = y from if_pos rfl, hy]
    have hleave := run_leaveIf htest block
    show Run.andThen (Instr.run m _) (runInstrs m _) st = _
    rw [Run.andThen, hnegate]
    refine hleave.trans ?_
    cases v <;> rfl

/-- The code of a logical operator around that of its operands: the left one, left in `x`, becomes
the result `r`, and unless it decides the right one, left in `y`, does. -/
def shortCircuit (m : Machine V W) (conj : Bool) (p : Prim) (r t x y : Var) (block : BlockId)
    (left right : Run V W) : Run V W :=
  runBreakable block
    (Run.andThen left
      (Run.andThen (runInstrs m [copyInto r x])
        (Run.andThen (runInstrs m (decideBy conj p t x block))
          (Run.andThen right (runInstrs m [copyInto r y])))))

section

variable {conj : Bool} {p : Prim} {r t x y : Var} {block : BlockId} {left right : Run V W}
  {st st₁ : State V W}

theorem shortCircuit_of_stop {exit : Exit V} (h : left st = (st₁, exit)) (hexit : exit ≠ .fall)
    (hwithin : exit.Within fun _ ↦ False) :
    shortCircuit m conj p r t x y block left right st = (st₁, exit) :=
  runBreakable_of_within (Run.andThen_of_stop h hexit) hwithin

/-- Behind the left operand the result has its value, and the right operand follows only if that
value does not decide. -/
theorem exists_shortCircuit (y : Var) (block : BlockId) (right : Run V W) (hcopies : m.Copies)
    (hnegates : m.Negates) (hr : conj = true → r ≠ t) (h : left st = (st₁, .fall)) {v : Bool}
    (hv : m.test (st₁.vars x) = some v) :
    ∃ st₂, st₂.Agrees (fun w ↦ w ≠ r ∧ ¬(conj = true ∧ w = t)) st₁ ∧ st₂.vars r = st₁.vars x ∧
      shortCircuit m conj .bool r t x y block left right st =
        if v = conj then runBreakable block (Run.andThen right (runInstrs m [copyInto r y])) st₂
        else (st₂, .fall) := by
  have hx : (st₁.set r (st₁.vars x)).vars x = st₁.vars x := ite_self _
  obtain ⟨st₂, hagrees, hdecide⟩ := exists_run_decideBy hnegates conj t (hx.symm ▸ hv) block
  refine ⟨st₂, ⟨hagrees.world, hagrees.trace, fun w hw ↦ ?_⟩, ?_, ?_⟩
  · exact (hagrees.vars w hw.2).trans (if_neg hw.1)
  · exact (hagrees.vars r fun h ↦ hr h.1 h.2).trans (if_pos rfl)
  · have hfirst (k : Run V W) : Run.andThen left (Run.andThen (runInstrs m [copyInto r x]) k) st
        = k (st₁.set r (st₁.vars x)) :=
      (Run.andThen_of_fall h).trans (Run.andThen_of_fall (run_copy hcopies r x st₁))
    split
    · rw [if_pos ‹_›] at hdecide
      unfold shortCircuit runBreakable
      rw [hfirst, Run.andThen_of_fall hdecide]
    · rw [if_neg ‹_›] at hdecide
      exact runBreakable_of_exit ((hfirst _).trans (Run.andThen_of_stop hdecide nofun))

end

end Ir

/-- Whether an expression joins two operands by `&&` or `||`. -/
def Expr.IsLogical (e : Expr) : Prop :=
  e.kind = .binary ∧ (e.op = .logAnd ∨ e.op = .logOr)

namespace Lowering

variable {α : Type} {σ : Scope} {us : Forest} {frame : Frame} {n b : Nat} {s s' : Lowering}
  {sub : Sub} {e : Expr} {r : Var}

/-! ## The code of one operator -/

/-- What is lowered inside the block of a logical operator, with its result in `r`. -/
def logicalBody (sub : Sub) (e : Expr) (r : Var) (block : BlockId) : M Unit := do
  let x ← first (← rvalue sub e.x)
  emit (copyInto r x)
  let test ← if e.op = .logAnd then do operation .eqz (← primOf x) .bool [x] else pure x
  emit { op := .exitIf, args := [test], target := block }
  openBasic
  let y ← first (← rvalue sub e.y)
  emit (copyInto r y)

theorem lowerLogical_apply (sub : Sub) (e : Expr) (frame : Frame) (s : Lowering) :
    lowerLogical sub e frame s = (do
      let block ← newBlock .breakable
      let body ← nested (logicalBody sub e s.vars.size block)
      updateBlock block fun b => { b with body := body }
      openBasic
      return s.vars.size) frame { s with vars := s.vars.push .bool } :=
  rfl

theorem exists_of_breakable {inner : BlockId → M Unit} {a c : α}
    (h : (do
      let block ← newBlock .breakable
      let body ← nested (inner block)
      updateBlock block fun b => { b with body := body }
      openBasic
      return a) frame s = (.ok c, s')) :
    c = a ∧ ∃ s₁, inner (s.blocks.size + 1) frame (s.enter .breakable) = (.ok ⟨⟩, s₁) ∧
      s' = leaveBreakable s s₁ := by
  suffices hsteps : Ensures (do
      let body ← nested (inner (s.blocks.size + 1)) frame
      updateBlock (s.blocks.size + 1) (fun c => { c with body := body }) frame
      openBasic frame
      pure a) (s.pushBlock .breakable) fun c s' ↦ c = a ∧
        ∃ s₁, inner (s.blocks.size + 1) frame (s.enter .breakable) = (.ok ⟨⟩, s₁) ∧
          s' = leaveBreakable s s₁ from hsteps.of_eq h
  rw [nested_apply, Ensures, Stage.meets_bind, Stage.meets_bind, Stage.meets_modify,
    Stage.meets_bind]
  show Stage.Meets _ (s.enter .breakable) _ _
  rw [Stage.meets_bind]
  have hinner : Ensures (inner (s.blocks.size + 1) frame) (s.enter .breakable) fun _ s₁ ↦
      inner (s.blocks.size + 1) frame (s.enter .breakable) = (.ok ⟨⟩, s₁) :=
    Stage.ensures_iff.2 fun _ _ h ↦ h
  refine hinner.imp ?_
  rintro _ s₁ hs₁
  exact ⟨rfl, s₁, hs₁, rfl⟩

theorem emit_apply (i : Instr) (frame : Frame) (s : Lowering) :
    emit i frame s = (.ok ⟨⟩, s.append i) :=
  rfl

/-- How the code of a logical operator is put together.  The states `l` and `l'` are those around its
left operand, which is left in `x`; `q` and `q'` are those around its right operand, left in `y`. -/
structure Joined (sub : Sub) (frame : Frame) (e : Expr) (s s' l l' q q' : Lowering) (x y : Var) :
    Prop where
  left : ∃ xs, rvalue sub e.x frame l = (.ok (x :: xs), l')
  right : ∃ ys, rvalue sub e.y frame q = (.ok (y :: ys), q')
  underway_left : ∃ σ us, Underway σ us frame l
  underway_right : ∃ σ us, Underway σ us frame q
  program_left : l.store.program = s.store.program
  program_right : q.store.program = s.store.program
  result_lt : s.vars.size < l.vars.size
  left_le : l.vars.size ≤ l'.vars.size
  right_le : q.vars.size ≤ q'.vars.size
  middle_le : l'.vars.size ≤ q.vars.size
  last_le : q'.vars.size ≤ s'.vars.size
  prim : s'.vars[s.vars.size]? = some .bool
  prefix_left : l'.vars.toList <+: s'.vars.toList
  prefix_right : q'.vars.toList <+: s'.vars.toList
  run : ∃ p t, (e.op = .logAnd → l'.vars[x]? = some p ∧ l'.vars.size ≤ t ∧ t < q.vars.size) ∧
    ∀ {V W : Type} (m : Machine V W) (budget : Nat), runAdded m budget s s' =
      Ir.shortCircuit m (e.op = .logAnd) p s.vars.size t x y (s.blocks.size + 1)
        (runAdded m budget l l') (runAdded m budget q q')

/-- An operand is evaluated and copied to the result. -/
theorem Underway.exists_operand {depth : Nat} {id : ExprId} {k : Var → M α} {a : α} {r : Var}
    (h : Underway σ us frame s) (hn : n ≤ s.vars.size) (hb : b ≤ s.blocks.size) (hr : n ≤ r)
    (hr' : r < s.vars.size)
    (hx : (do
      let x ← first (← rvalue (lowerWithin depth) id)
      emit (copyInto r x)
      k x) frame s = (.ok a, s')) :
    ∃ x xs t us', rvalue (lowerWithin depth) id frame s = (.ok (x :: xs), t) ∧
      Advanced σ frame n b us s us' (t.append (copyInto r x)) ∧
      s.vars.size ≤ t.vars.size ∧ x < t.vars.size ∧ frame.Sees n x ∧
      (∀ {V W : Type} (m : Machine V W) (budget : Nat),
        runAdded m budget s (t.append (copyInto r x)) =
          Run.andThen (runAdded m budget s t) (runInstrs m [copyInto r x])) ∧
      k x frame (t.append (copyInto r x)) = (.ok a, s') := by
  obtain ⟨vars, t, hvalue, hx⟩ := exists_of_bind hx
  obtain ⟨us₁, h₁, hbelow, hsees⟩ := h.exists_advanced hn hb
    (writes_rvalue (subWrites_lowerWithin depth) h.below id)
    (enlarges_rvalue (subEnlarges_lowerWithin depth) id)
    (grows_rvalue (subFits_lowerWithin depth) id) hvalue
  obtain ⟨x, _, hfirst, hx⟩ := exists_of_bind hx
  obtain ⟨rfl, xs, rfl⟩ := eq_of_first hfirst
  obtain ⟨_, _, hemit, hx⟩ := exists_of_bind hx
  cases hemit
  have hle := h₁.enlarged.vars_le
  have hxt := hbelow x List.mem_cons_self
  have hsees := hsees x List.mem_cons_self
  obtain ⟨us₂, h₂, -⟩ := h₁.underway.exists_advanced (x := emit (copyInto r x))
    (Nat.le_trans hn hle) (Nat.le_trans hb h₁.enlarged.size_le)
    (writes_emit ⟨rfl, nofun, rfl, varsBelow_singleton.2 (Nat.lt_of_lt_of_le hr' hle),
      varsBelow_singleton.2 hxt⟩)
    (enlarges_emit (tame_operation rfl nofun rfl (by simpa [copyInto] using hr)
      (by simpa [copyInto] using hsees))) (grows_emit _) (emit_apply _ frame t)
  obtain ⟨_, hemits, rfl⟩ := Adds.of_eq (adds_emit (copyInto r x)) (emit_apply _ frame t)
  refine ⟨x, xs, t, us₂, hvalue, h₁.trans h₂, hle, hxt, hsees, fun m budget ↦ ?_, hx⟩
  rw [h₁.run_trans h₂.toProgress, (h₂.run_of_emits hemits).2]

/-- A breakable block is left where a variable is true. -/
theorem Underway.exists_leave {block : BlockId} {test : Var}
    (h : Underway ((block, .breakable) :: σ) us frame s) (hn : n ≤ s.vars.size)
    (hb : b ≤ s.blocks.size) (hblock : b < block) (htest : test < s.vars.size)
    (hsees : frame.Sees n test) :
    ∃ us', Advanced ((block, .breakable) :: σ) frame n b us s us'
        (s.append { op := .exitIf, args := [test], target := block }).pushBasic ∧
      ∀ {V W : Type} (m : Machine V W) (budget : Nat),
        runAdded m budget s (s.append { op := .exitIf, args := [test], target := block }).pushBasic
          = runInstrs m [{ op := .exitIf, args := [test], target := block }] := by
  have hwrites : Writes ((block, .breakable) :: σ) frame s.vars.size (do
      emit { op := .exitIf, args := [test], target := block }
      openBasic
      pure ⟨⟩ : M Unit) fun _ _ ↦ True :=
    writes_branch (fun _ ↦ by simp [Ir.Function.branchViolations]) (by simp) rfl varsBelow_nil
      (varsBelow_singleton.2 htest) (writes_pure fun _ _ ↦ trivial)
  have henlarges : Enlarges frame n b (do
      emit { op := .exitIf, args := [test], target := block }
      openBasic
      pure ⟨⟩ : M Unit) fun _ ↦ True :=
    Enlarges.bind (enlarges_emit ⟨⟨fun _ ↦ ⟨rfl, hblock⟩, rfl, by simp, by simpa using hsees⟩,
      by simp⟩) fun _ _ ↦ enlarges_openBasic.bind fun _ _ ↦ enlarges_pure trivial
  obtain ⟨us', h', -⟩ := h.exists_advanced hn hb hwrites henlarges
    ((grows_emit _).andThen fun _ _ ↦ grows_openBasic.andThen fun _ _ ↦ grows_pure _) rfl
  refine ⟨us', h', fun m budget ↦ (run_branch h.writing _).trans ?_⟩
  exact (Run.andThen_skip _).symm

/-- The result of the left operand is tested, negated for `&&`, and leaves the block where it decides
the result. -/
theorem Underway.exists_test {block : BlockId} {x : Var} {k : M α} {a : α}
    (h : Underway ((block, .breakable) :: σ) us frame s) (hn : n ≤ s.vars.size)
    (hb : b ≤ s.blocks.size) (hblock : b < block) (hx : x < s.vars.size) (hsees : frame.Sees n x)
    (hk : (do
      let test ← if e.op = .logAnd then do operation .eqz (← primOf x) .bool [x] else pure x
      emit { op := .exitIf, args := [test], target := block }
      openBasic
      k : M α) frame s = (.ok a, s')) :
    ∃ p t q us', Advanced ((block, .breakable) :: σ) frame n b us s us' q ∧
      (e.op = .logAnd → s.vars[x]? = some p ∧ s.vars.size ≤ t ∧ t < q.vars.size) ∧
      (∀ {V W : Type} (m : Machine V W) (budget : Nat),
        runAdded m budget s q = runInstrs m (Ir.decideBy (decide (e.op = .logAnd)) p t x block)) ∧
      k frame q = (.ok a, s') := by
  have hleave {test : Var} {t : Lowering} (h : (do
      emit { op := .exitIf, args := [test], target := block }
      openBasic
      k : M α) frame t = (.ok a, s')) :
      k frame (t.append { op := .exitIf, args := [test], target := block }).pushBasic
        = (.ok a, s') := by
    obtain ⟨_, _, hemit, h⟩ := exists_of_bind h
    cases hemit
    obtain ⟨_, _, hopen, h⟩ := exists_of_bind h
    cases hopen
    exact h
  by_cases hand : e.op = .logAnd
  · simp only [if_pos hand] at hk
    obtain ⟨p, _, hprim, hk⟩ := exists_of_bind hk
    obtain ⟨rfl, hp⟩ := eq_of_primOf hprim
    obtain ⟨test, s₁, htest, hk⟩ := exists_of_bind hk
    have hsees' : ∀ v ∈ [x], frame.Sees n v := by simpa using hsees
    obtain ⟨us₁, h₁, hlt, hle⟩ := h.exists_advanced hn hb
      (writes_operation (by rfl) (by nofun) p .bool (varsBelow_singleton.2 hx))
      (enlarges_operation (by rfl) (by nofun) p .bool hsees') (grows_operation _ _ _ _) htest
    cases htest
    obtain ⟨us₂, h₂, hrun₂⟩ := h₁.underway.exists_leave (Nat.le_trans hn h₁.enlarged.vars_le)
      (Nat.le_trans hb h₁.enlarged.size_le) hblock hlt (Frame.sees_of_le hle)
    refine ⟨p, _, _, us₂, h₁.trans h₂, fun _ ↦ ⟨hp, Nat.le_refl _, hlt⟩, fun m budget ↦ ?_,
      hleave hk⟩
    obtain ⟨_, hnew, rfl, -⟩ := Adds.of_eq (show Adds frame s _ _ from adds_newVar .bool) rfl
    obtain ⟨_, hemit, rfl⟩ := Adds.of_eq
      (show Adds frame { s with vars := s.vars.push .bool } _ _ from adds_emit
        { op := .eqz, dst := [s.vars.size], args := [x], storage := p }) rfl
    rw [h₁.run_trans h₂.toProgress, hrun₂, (h₁.run_of_emits (hnew.trans hemit)).2,
      ← Ir.runInstrs_append, Ir.decideBy, if_pos (by simpa using hand)]
    rfl
  · simp only [if_neg hand, pure_bind] at hk
    obtain ⟨us', h', hrun⟩ := h.exists_leave hn hb hblock hx hsees
    refine ⟨.bool, 0, _, us', h', fun h ↦ absurd h hand, fun m budget ↦ ?_, hleave hk⟩
    rw [hrun, Ir.decideBy, if_neg (by simpa using hand)]

theorem exists_joined {depth : Nat} (h : Underway σ us frame s)
    (hx : lowerLogical (lowerWithin depth) e frame s = (.ok r, s')) :
    r = s.vars.size ∧ ∃ l l' q q' x y, Joined (lowerWithin depth) frame e s s' l l' q q' x y := by
  have haside := aside_push s .bool
  set s₁ : Lowering := { s with vars := s.vars.push .bool } with hs₁
  have hsize₁ : s₁.vars.size = s.vars.size + 1 := by simp [hs₁]
  have h₁ : Underway σ us frame s₁ := h.later (h.writing.aside haside) haside.vars_le (.refl _)
  obtain ⟨hr, s₂, hbody, hs'⟩ := exists_of_breakable ((lowerLogical_apply _ e frame s) ▸ hx)
  refine ⟨hr, ?_⟩
  -- inside the block
  set l := s₁.enter .breakable with hl
  have hwl : Underway ((s₁.blocks.size + 1, .breakable) :: σ) _ frame l :=
    h₁.later h₁.writing.enter (Nat.le_refl _) (.refl _)
  have hnl : s.vars.size < l.vars.size := Nat.lt_of_lt_of_eq (Nat.lt_succ_self _) hsize₁.symm
  have hbl : s₁.blocks.size ≤ l.blocks.size := by rw [hl, size_enter]; exact Nat.le_add_right _ _
  obtain ⟨x, xs, l', us₁, hleft, ha₁, hle₁, hx, hsees, hrun₁, hbody⟩ :=
    hwl.exists_operand (Nat.le_of_lt hnl) hbl (Nat.le_refl _) hnl hbody
  have hn₁ := ha₁.enlarged.vars_le
  have hb₁ := ha₁.enlarged.size_le
  obtain ⟨p, t, q, us₂, ha₂, ht, hrun₂, hbody⟩ := ha₁.underway.exists_test
    (Nat.le_trans (Nat.le_of_lt hnl) hn₁) (Nat.le_trans hbl hb₁) (Nat.lt_succ_self _) hx hsees hbody
  have hn₂ := Nat.le_trans hn₁ ha₂.enlarged.vars_le
  have hb₂ := Nat.le_trans hb₁ ha₂.enlarged.size_le
  have hbody : (do
      let y ← first (← rvalue (lowerWithin depth) e.y)
      emit (copyInto s.vars.size y)
      pure ⟨⟩ : M Unit) frame q = (.ok ⟨⟩, s₂) := by
    simpa using hbody
  obtain ⟨y, ys, q', us₃, hright, ha₃, hle₃, -, -, hrun₃, hend⟩ :=
    ha₂.underway.exists_operand (Nat.le_trans (Nat.le_of_lt hnl) hn₂) (Nat.le_trans hbl hb₂)
      (Nat.le_refl _) (Nat.lt_of_lt_of_le hnl hn₂) hbody
  cases hend
  have hall := ha₁.trans (ha₂.trans ha₃)
  refine ⟨l, l', q, q', x, y, ⟨xs, hleft⟩, ⟨ys, hright⟩, ⟨_, _, hwl⟩, ⟨_, _, ha₂.underway⟩, rfl,
    (ha₁.gains.trans ha₂.gains).toKeeps.program, hnl, hle₁, hle₃, ha₂.enlarged.vars_le, ?_, ?_, ?_,
    ?_, p, t, ht, fun m budget ↦ ?_⟩
  · rw [hs']
    exact Nat.le_refl _
  · have hnew : l.vars[s.vars.size]? = some .bool := Array.getElem?_push_size
    rw [hs']
    exact hall.enlarged.getElem?_vars hnew
  · rw [hs']
    exact (ha₂.trans ha₃).enlarged.vars
  · rw [hs']
    exact List.prefix_refl _
  · rw [haside.runAdded_eq, hs', hall.run_breakable h₁.writing,
      ha₁.run_trans (ha₂.trans ha₃).toProgress, ha₂.run_trans ha₃.toProgress, hrun₁, hrun₂, hrun₃]
    simp only [Run.andThen_assoc]
    rfl

/-! ## Trees of operators -/

/-- An expression of logical operators.  Of an operand that is none, the code lies between two states
and its value is left in a variable. -/
inductive Operands where
  | operand (s s' : Lowering) (x : Var)
  /-- `&&` if `conj`, otherwise `||`. -/
  | join (conj : Bool) (left right : Operands)

namespace Operands

/-- Evaluate from left to right: a right operand runs only where the left one has the truth value
that does not decide.  Gives the value or how the run has stopped, and nothing if the value of a left
operand is no truth value. -/
def eval {V W : Type} (m : Machine V W) (budget : Nat) :
    Operands → State V W → Option (State V W × Except (Exit V) V)
  | operand s s' x, st =>
    match runAdded m budget s s' st with
    | (st', .fall) => some (st', .ok (st'.vars x))
    | (st', exit) => some (st', .error exit)
  | join conj left right, st =>
    match left.eval m budget st with
    | some (st', .ok v) =>
      match m.test v with
      | some b => if b = conj then right.eval m budget st' else some (st', .ok v)
      | none => none
    | stopped => stopped

/-- Among these variables, those that the operands are left in are for truth values. -/
def Boolean (vars : Array Prim) : Operands → Prop
  | operand _ _ x => ∀ p, vars[x]? = some p → p = .bool
  | join _ left right => left.Boolean vars ∧ right.Boolean vars

theorem boolean_of_forall {vars : Array Prim} (h : ∀ p ∈ vars, p = .bool) (tree : Operands) :
    tree.Boolean vars := by
  induction tree with
  | operand => exact fun p hp ↦ h p (Array.mem_of_getElem? hp)
  | join _ _ _ ihleft ihright => exact ⟨ihleft, ihright⟩

theorem Boolean.of_isPrefix {vars vars' : Array Prim} {tree : Operands} (h : tree.Boolean vars')
    (hvars : vars.toList <+: vars'.toList) : tree.Boolean vars := by
  induction tree with
  | operand => exact fun p hp ↦ h p (getElem?_vars_of_isPrefix hvars hp)
  | join _ _ _ ihleft ihright => exact ⟨ihleft h.1, ihright h.2⟩

/-- Where every value is a truth value, evaluation gives something. -/
theorem exists_eval {V W : Type} {m : Machine V W} (h : ∀ v, (m.test v).isSome) (budget : Nat)
    (tree : Operands) (st : State V W) : ∃ result, tree.eval m budget st = some result := by
  induction tree generalizing st with
  | operand s s' x =>
    rw [eval]
    split <;> exact ⟨_, rfl⟩
  | join conj left right ihleft ihright =>
    obtain ⟨⟨t, result⟩, hleft⟩ := ihleft st
    rw [eval, hleft]
    cases result with
    | error exit => exact ⟨_, rfl⟩
    | ok v =>
      obtain ⟨b, hb⟩ := Option.isSome_iff_exists.1 (h v)
      dsimp only
      rw [hb]
      dsimp only
      split
      · exact ihright t
      · exact ⟨_, rfl⟩

/-- The tree of an expression in a program. -/
inductive Of (p : Program) (frame : Frame) : ExprId → Operands → Prop
  | operand {id : ExprId} {depth : Nat} {s s' : Lowering} {x : Var} {xs : List Var}
      (hplain : ∀ e, p.expr? id = some e → ¬e.IsLogical)
      (hlowered : rvalue (lowerWithin depth) id frame s = (.ok (x :: xs), s')) :
      Of p frame id (operand s s' x)
  | join {id : ExprId} {e : Expr} {left right : Operands} (he : p.expr? id = some e)
      (hlogical : e.IsLogical) (hleft : Of p frame e.x left) (hright : Of p frame e.y right) :
      Of p frame id (join (e.op = .logAnd) left right)

end Operands

/-- A run ends as an evaluation does: with the value in `x`, and with variables from `n` on and those
of the frame as the evaluation has them, or stopped in the same way with the same effects. -/
inductive Answers {V W : Type} (frame : Frame) (n : Nat) (x : Var) :
    State V W × Exit V → State V W × Except (Exit V) V → Prop
  | value {t t' : State V W} (hagrees : t.Agrees (frame.Sees n) t') :
      Answers frame n x (t, .fall) (t', .ok (t.vars x))
  | stop {t t' : State V W} {exit : Exit V} (hexit : exit ≠ .fall) (hworld : t.world = t'.world)
      (htrace : t.trace = t'.trace) : Answers frame n x (t, exit) (t', .error exit)

/-- Running the code between two states evaluates the tree, and leaves the value in `x`. -/
structure Evaluates (frame : Frame) (s s' : Lowering) (x : Var) (tree : Operands) : Prop where
  confined : ∀ {V W : Type} (m : Machine V W) (budget : Nat),
    Run.Confined (frame.Sees s.vars.size) (s.vars.size ≤ ·) (fun _ ↦ False) (runAdded m budget s s')
  prim : tree.Boolean s'.vars → ∀ p, s'.vars[x]? = some p → p = .bool
  run : ∀ {V W : Type} (m : Machine V W), m.Copies → m.Negates → ∀ budget, tree.Boolean s'.vars →
    ∀ st st' result, st.Agrees (frame.Sees s.vars.size) st' →
      tree.eval m budget st' = some result →
      Answers frame s'.vars.size x (runAdded m budget s s' st) result

/-- An operand is evaluated by its own code. -/
theorem evaluates_operand {x : Var} (hle : s.vars.size ≤ s'.vars.size)
    (hsees : frame.Sees s.vars.size x)
    (hconfined : ∀ {V W : Type} (m : Machine V W) (budget : Nat),
      Run.Confined (frame.Sees s.vars.size) (s.vars.size ≤ ·) (fun _ ↦ False)
        (runAdded m budget s s')) :
    Evaluates frame s s' x (.operand s s' x) where
  confined := hconfined
  prim h := h
  run m _ _ budget _ st st' result hagrees heval := by
    have hexit := (hconfined m budget).same_exit st st' hagrees
    have hvars := (hconfined m budget).agrees st st' hagrees
    rw [Operands.eval] at heval
    generalize runAdded m budget s s' st = r at hexit hvars ⊢
    generalize runAdded m budget s s' st' = r' at hexit hvars heval
    obtain ⟨t, exit⟩ := r
    obtain ⟨t', exit'⟩ := r'
    obtain rfl : exit = exit' := hexit
    cases exit with
    | fall =>
      cases heval
      rw [← show t.vars x = t'.vars x from hvars.vars x hsees]
      exact .value (hvars.mono fun w hw ↦ hw.imp_right hle.trans)
    | _ =>
      cases heval
      exact .stop nofun hvars.world hvars.trace

theorem Frame.not_sees {k v : Nat} (hframe : frame.Below k) (hk : k ≤ v) (hv : v < n) :
    ¬frame.Sees n v := by
  rintro ((hself | ⟨row, hrow, hmem⟩) | hle)
  · exact Nat.not_le_of_lt (hframe.self v hself) hk
  · exact Nat.not_le_of_lt (hframe.locals row hrow v hmem) hk
  · exact Nat.not_le_of_lt hv hle

/-- An operator evaluates its operands; steps before it that touch no block do not matter. -/
theorem evaluates_join {s₁ l l' q q' : Lowering} {x y : Var} {left right : Operands}
    (haside : s.Aside s₁) (hframe : frame.Below s₁.vars.size)
    (hj : Joined sub frame e s₁ s' l l' q q' x y) (hleft : Evaluates frame l l' x left)
    (hright : Evaluates frame q q' y right)
    (hconfined : ∀ {V W : Type} (m : Machine V W) (budget : Nat),
      Run.Confined (frame.Sees s.vars.size) (s.vars.size ≤ ·) (fun _ ↦ False)
        (runAdded m budget s s')) :
    Evaluates frame s s' s₁.vars.size (.join (e.op = .logAnd) left right) where
  confined := hconfined
  prim _ p hp := Option.some.inj (hp.symm.trans hj.prim)
  run m hcopies hnegates budget hbool st st' result hagrees heval := by
    have hbool' := hbool.2.of_isPrefix hj.prefix_right
    have hbool := hbool.1.of_isPrefix hj.prefix_left
    obtain ⟨p, t, ht, hrun⟩ := hj.run
    have hleftPrim (hand : e.op = .logAnd) := hleft.prim hbool p (ht hand).1
    have ht (hand : decide (e.op = .logAnd) = true) := (ht (of_decide_eq_true hand)).2
    have hlt : s₁.vars.size < l'.vars.size := Nat.lt_of_lt_of_le hj.result_lt hj.left_le
    have hlt' : s₁.vars.size < q.vars.size := Nat.lt_of_lt_of_le hlt hj.middle_le
    have hlast : q.vars.size ≤ s'.vars.size := Nat.le_trans hj.right_le hj.last_le
    have hlt₁ := Nat.le_trans haside.vars_le (Nat.le_of_lt hj.result_lt)
    -- what is negated is a truth value
    have hprim :
        Ir.shortCircuit m (e.op = .logAnd) p = Ir.shortCircuit m (e.op = .logAnd) .bool := by
      by_cases hand : e.op = .logAnd
      · rw [hleftPrim hand]
      · rw [decide_eq_false hand]
        rfl
    rw [haside.runAdded_eq, hrun, hprim]
    rw [Operands.eval] at heval
    cases hleval : left.eval m budget st' with
    | none =>
      rw [hleval] at heval
      cases heval
    | some result₁ =>
    have h₁ := hleft.run m hcopies hnegates budget hbool st st' result₁
      (hagrees.mono fun w hw ↦ hw.imp_right hlt₁.trans) hleval
    have hwithin := (hleft.confined m budget).within st
    generalize hl : runAdded m budget l l' st = a at h₁ hwithin
    rw [hleval] at heval
    cases h₁ with
    | stop hexit hworld htrace =>
      cases heval
      rw [Ir.shortCircuit_of_stop hl hexit hwithin]
      exact .stop hexit hworld htrace
    | @value t₁ t' hagrees₁ =>
    dsimp only at heval
    cases htest : m.test (t₁.vars x) with
    | none =>
      rw [htest] at heval
      cases heval
    | some c =>
    rw [htest] at heval
    dsimp only at heval
    have hne (hand : decide (e.op = .logAnd) = true) : s₁.vars.size ≠ t :=
      Nat.ne_of_lt (Nat.lt_of_lt_of_le hlt (ht hand).1)
    obtain ⟨t₂, hagrees₂, hvalue, hcircuit⟩ := Ir.exists_shortCircuit y (s₁.blocks.size + 1)
      (runAdded m budget q q') hcopies hnegates hne hl htest
    -- what goes on sees neither the result nor its negation
    have hagrees₂ : t₂.Agrees (frame.Sees q.vars.size) t' := by
      refine (hagrees₂.mono fun w hw ↦ ⟨?_, ?_⟩).trans
        (hagrees₁.mono fun w hw ↦ hw.imp_right hj.middle_le.trans)
      · rintro rfl
        exact Frame.not_sees hframe (Nat.le_refl _) hlt' hw
      · rintro ⟨hand, rfl⟩
        obtain ⟨hle, htlt⟩ := ht hand
        exact Frame.not_sees (hframe.mono (Nat.le_of_lt hlt)) hle htlt hw
    rw [hcircuit]
    split at heval
    · -- the right operand goes on
      rw [if_pos ‹_›]
      have h₂ := hright.run m hcopies hnegates budget hbool' t₂ t' result hagrees₂ heval
      have hwithin' := (hright.confined m budget).within t₂
      generalize hr : runAdded m budget q q' t₂ = a' at h₂ hwithin'
      cases h₂ with
      | stop hexit hworld htrace =>
        rw [Ir.runBreakable_of_within (Run.andThen_of_stop hr hexit) hwithin']
        exact .stop hexit hworld htrace
      | @value t₃ u hagrees₃ =>
        have hcopy := Ir.run_copy hcopies s₁.vars.size y t₃
        rw [Ir.runBreakable_of_within ((Run.andThen_of_fall hr).trans hcopy) trivial]
        have hunseen := Frame.not_sees hframe (Nat.le_refl _) (Nat.lt_of_lt_of_le hlt' hlast)
        have hanswer := Answers.value (x := s₁.vars.size)
          ((hagrees₃.mono fun w hw ↦ hw.imp_right hj.last_le.trans).set_left hunseen (t₃.vars y))
        rwa [show (t₃.set s₁.vars.size (t₃.vars y)).vars s₁.vars.size = t₃.vars y from if_pos rfl]
          at hanswer
    · -- the left operand has decided
      rw [if_neg ‹_›]
      cases heval
      rw [← hvalue]
      exact .value (hagrees₂.mono fun w hw ↦ hw.imp_right hlast.trans)

/-! ## Every expression -/

theorem lowerWithin_logical {id : ExprId} (depth : Nat) (he : s.store.program.expr? id = some e)
    (hlogical : e.IsLogical) : lowerWithin (depth + 1) id none frame s = (do
      let type ← resolve e.type
      let _ ← typeOf type
      let r ← lowerLogical (lowerWithin depth) e
      return Value.direct type [r]) frame s := by
  have hstep : exprStep (lowerWithin depth) id e none = do
      let type ← resolve e.type
      let _ ← typeOf type
      let r ← lowerLogical (lowerWithin depth) e
      return Value.direct type [r] := by
    unfold exprStep
    simp only [hlogical.1, lowerBinary, if_pos hlogical.2, deliver]
  rw [← hstep]
  have hprogram : program frame s = (.ok s.store.program, s) := rfl
  rw [lowerWithin]
  show (program frame >>= fun p ↦ _) s = _
  rw [Stage.bind_apply, hprogram]
  dsimp only
  rw [he]

/-- Whatever an expression is, its code evaluates its tree of logical operators. -/
theorem exists_evaluates (depth : Nat) {id : ExprId} {x : Var} {xs : List Var}
    (h : Underway σ us frame s)
    (hx : rvalue (lowerWithin depth) id frame s = (.ok (x :: xs), s')) :
    ∃ tree, Operands.Of s.store.program frame id tree ∧ Evaluates frame s s' x tree := by
  induction depth generalizing σ us s s' id x xs with
  | zero =>
    obtain ⟨_, _, hvalue, -⟩ := exists_of_bind hx
    cases hvalue
  | succ depth ih =>
    obtain ⟨us', ha, -, hsees⟩ := h.exists_advanced (Nat.le_refl _) (Nat.le_refl _)
      (writes_rvalue (subWrites_lowerWithin _) h.below id)
      (enlarges_rvalue (subEnlarges_lowerWithin _) id)
      (grows_rvalue (subFits_lowerWithin _) id) hx
    have hconfined {V W : Type} (m : Machine V W) (budget : Nat) :
        Run.Confined (frame.Sees s.vars.size) (s.vars.size ≤ ·) (fun _ ↦ False)
          (runAdded m budget s s') :=
      ha.confined (Nat.le_refl _)
    by_cases hlogical : ∃ e, s.store.program.expr? id = some e ∧ e.IsLogical
    · obtain ⟨e, he, hlogical⟩ := hlogical
      obtain ⟨v, _, hvalue, hread⟩ := exists_of_bind hx
      rw [lowerWithin_logical depth he hlogical] at hvalue
      obtain ⟨type, s₁, hresolve, hvalue⟩ := exists_of_bind hvalue
      obtain ⟨t, s₂, htype, hvalue⟩ := exists_of_bind hvalue
      obtain ⟨r, s₃, hjoined, hend⟩ := exists_of_bind hvalue
      cases hend
      cases hread
      -- what the type is asked for touches no block
      have haside₁ := Stage.ensures_iff.1 (quiet_resolve e.type frame s) type s₁ hresolve
      have haside₂ := Stage.ensures_iff.1 (quiet_typeOf type frame s₁) t s₂ htype
      obtain ⟨us₁, ha₁, -⟩ := h.exists_advanced (Nat.le_refl _) (Nat.le_refl _)
        (quiet_resolve e.type).writes (quiet_resolve e.type).enlarges (grows_resolve e.type) hresolve
      obtain ⟨us₂, ha₂, -⟩ := ha₁.underway.exists_advanced (Nat.le_refl _) (Nat.le_refl _)
        (quiet_typeOf type).writes (quiet_typeOf type).enlarges
        ((yields_typeOf type).imp fun _ _ _ _ ↦ trivial) htype
      obtain ⟨rfl, l, l', q, q', x, y, hj⟩ := exists_joined ha₂.underway hjoined
      obtain ⟨xs, hleft⟩ := hj.left
      obtain ⟨ys, hright⟩ := hj.right
      obtain ⟨_, _, hl⟩ := hj.underway_left
      obtain ⟨_, _, hq⟩ := hj.underway_right
      obtain ⟨left, hof, hleft⟩ := ih hl hleft
      obtain ⟨right, hof', hright⟩ := ih hq hright
      have hprogram := (ha₁.gains.trans ha₂.gains).toKeeps.program
      rw [hj.program_left, hprogram] at hof
      rw [hj.program_right, hprogram] at hof'
      exact ⟨_, .join he hlogical hof hof',
        evaluates_join (haside₁.trans haside₂) ha₂.underway.below hj hleft hright hconfined⟩
    · refine ⟨.operand s s' x, .operand (fun e he hlog ↦ hlogical ⟨e, he, hlog⟩) hx, ?_⟩
      exact evaluates_operand ha.enlarged.vars_le (hsees x List.mem_cons_self) hconfined

end Lowering

/-! ## Three flags -/

/-- The expression `a && (b || !c)` over three locals. -/
def threeFlags : Program where
  types := #[{ kind := .prim, prim := .bool }]
  exprs := #[{ kind := .loc, type := 1, loc := 0 }, { kind := .loc, type := 1, loc := 1 },
    { kind := .loc, type := 1, loc := 2 }, { kind := .unary, type := 1, x := 3, op := .not },
    { kind := .binary, type := 1, x := 2, y := 4, op := .logOr },
    { kind := .binary, type := 1, x := 1, y := 5, op := .logAnd }]

namespace Lowering

/-- A function with three locals, each in one variable. -/
def flagsFrame : Frame where
  name := "f"
  locals := #[[0], [1], [2]]

/-- Its first block has been opened. -/
def atFlags : Lowering :=
  pushBasic {
    store := .ofProgram threeFlags, vars := #[.bool, .bool, .bool], nesting := [[]] }

theorem underway_atFlags : Underway [] [.basic atFlags.current] flagsFrame atFlags := by
  have hstart : Layouts.Reached threeFlags { store := .ofProgram threeFlags } := .start
  exact Blank.underway ⟨rfl, rfl, rfl, rfl⟩
    ⟨by simp [VarsBelow, flagsFrame], by simp [VarsBelow, flagsFrame]⟩
    ⟨hstart.consistent.proper, hstart.allTiled⟩ nofun rfl (rowsApart_of_nodup (by decide))

end Lowering

end WasmBackend
