import WasmBackend.Proofs.Tree

/-!
# Execution of block trees

What a function does when it runs.  Variables start at zero; instructions run in order; a basic
block falls through to the block behind it, and structured blocks decide which of their lists run.
The assignments that belong to an edge happen at once when control takes the edge.

What the operations of instructions compute is left to a `Machine`, which also answers for memory,
globals and the functions that are called: every statement about all machines is one about all
memory contents and all callees.  A run records the effects it has in order.  Loops get a budget of
iterations, so that every run ends; a run that goes on forever is one that uses up every budget.
-/

namespace WasmBackend.Ir

/-- Why a run stops without a result. -/
inductive Trap where
  | unreachable
  | divisionByZero
  | integerOverflow
  | invalidConversion
  | outOfBounds
  /-- A callee stopped, for a reason of its own. -/
  | callee (reason : Nat)
  /-- The operands of an instruction do not fit it. -/
  | malformed
deriving DecidableEq, Repr

/-- What an operation gives. -/
inductive Reply (V W : Type) where
  | done (results : List V) (world : W)
  | trap (reason : Trap)
  /-- The operation never comes back, as a callee that runs on. -/
  | never

/-- The instruction without the variables, the target and the assignments it is used with. -/
def Instr.operation (i : Instr) : Instr :=
  { i with dst := [], args := [], target := 0, copies := [] }

@[simp]
theorem Instr.isPure_operation (i : Instr) : i.operation.isPure = i.isPure := rfl

/-- What operations do on values `V` in a world `W` of memory, globals and callees.  Operations
that may be dropped do not change the world and always come back; one that control never goes on
behind stops the run. -/
structure Machine (V W : Type) where
  /-- The value variables of a primitive start with. -/
  zero : Prim → V
  /-- Whether a value counts as true; some values cannot be tested. -/
  test : V → Option Bool
  step : Instr → List V → W → Reply V W
  world_of_pure : ∀ {i args w results w'}, Instr.isPure i → step i args w = .done results w' →
    w' = w
  returns_of_pure : ∀ {i args w}, Instr.isPure i → step i args w ≠ .never
  trap_of_terminates : ∀ {i args w}, Instr.terminates i → step i args w = .trap .unreachable

/-- Whether the operation is an effect that a run records. -/
def Instr.isEffect (i : Instr) : Bool :=
  match i.op with
  | .load | .store | .call | .callIndirect | .globalGet | .globalSet | .native => true
  | _ => false

/-- An effect: an operation and what it was applied to. -/
structure Event (V : Type) where
  operation : Instr
  args : List V

/-- The values of the variables, the world, and the effects so far. -/
structure State (V W : Type) where
  vars : Var → V
  world : W
  trace : List (Event V) := []

/-- Where control goes. -/
inductive Exit (V : Type) where
  /-- To what comes next. -/
  | fall
  /-- Behind an enclosing construct. -/
  | exit (target : BlockId)
  /-- To the head of an enclosing loop. -/
  | next (target : BlockId)
  | ret (values : List V)
  | trap (reason : Trap)
  /-- An operation never comes back. -/
  | never
  /-- A loop has used up its budget. -/
  | pause

variable {V W : Type}

namespace State

/-- Give a variable a value. -/
def set (s : State V W) (v : Var) (x : V) : State V W :=
  { s with vars := fun w ↦ if w = v then x else s.vars w }

/-- Give variables values one after another. -/
def setAll (s : State V W) (bindings : List (Var × V)) : State V W :=
  bindings.foldl (fun s b ↦ s.set b.1 b.2) s

/-- Make assignments at once; of several to one variable the first counts. -/
def assign (s : State V W) (cs : List Copy) : State V W :=
  { s with
    vars := fun v ↦
      match cs.find? fun c ↦ c.dst = v with
      | some c => s.vars c.src
      | none => s.vars v }

/-- Record an operation if it is an effect. -/
def record (s : State V W) (i : Instr) (args : List V) : State V W :=
  if i.isEffect then { s with trace := s.trace ++ [⟨i.operation, args⟩] } else s

end State

/-- A run of a part of a function: the state it ends in and where control goes from there. -/
abbrev Run (V W : Type) := State V W → State V W × Exit V

/-- Run one part and, if control falls through it, another. -/
def Run.andThen (r r' : Run V W) : Run V W := fun s ↦
  match r s with
  | (s', .fall) => r' s'
  | stopped => stopped

theorem Run.andThen_assoc (r₁ r₂ r₃ : Run V W) :
    (r₁.andThen r₂).andThen r₃ = r₁.andThen (r₂.andThen r₃) := by
  funext s
  unfold Run.andThen
  rcases r₁ s with ⟨s', _ | _ | _ | _ | _ | _ | _⟩ <;> rfl

theorem Run.andThen_of_fall {r k : Run V W} {s t : State V W} (h : r s = (t, .fall)) :
    r.andThen k s = k t := by
  unfold Run.andThen
  rw [h]

theorem Run.andThen_of_stop {r k : Run V W} {s t : State V W} {exit : Exit V}
    (h : r s = (t, exit)) (hexit : exit ≠ .fall) : r.andThen k s = (t, exit) := by
  unfold Run.andThen
  rw [h]
  cases exit with
  | fall => exact absurd rfl hexit
  | _ => rfl

variable (m : Machine V W)

/-- Apply the operation of an instruction and keep its results. -/
def Instr.apply (i : Instr) : Run V W := fun s ↦
  let args := i.args.map s.vars
  let s := s.record i args
  match m.step i.operation args s.world with
  | .done results world =>
    if results.length = i.dst.length then
      (({ s with world := world }).setAll (i.dst.zip results), .fall)
    else (s, .trap .malformed)
  | .trap reason => (s, .trap reason)
  | .never => (s, .never)

/-- Leave through a branch, making the assignments of its edge. -/
def Instr.leave (i : Instr) (target : Exit V) : Run V W := fun s ↦ (s.assign i.copies, target)

/-- Whether the instruction only directs control. -/
def Instr.isControl (i : Instr) : Bool :=
  match i.op with
  | .ret | .exit | .next | .exitIf | .unreachable => true
  | _ => false

theorem Instr.isControl_of_isPure {i : Instr} (h : i.isPure) : i.isControl = false := by
  unfold isPure at h
  unfold isControl
  split <;> simp_all

/-- Direct control; such an instruction has no results. -/
def Instr.direct (i : Instr) : Run V W := fun s ↦
  match i.op, i.args with
  | .ret, args => (s, .ret (args.map s.vars))
  | .exit, _ => i.leave (.exit i.target) s
  | .next, _ => i.leave (.next i.target) s
  | .exitIf, [a] =>
    match m.test (s.vars a) with
    | some true => i.leave (.exit i.target) s
    | some false => (s, .fall)
    | none => (s, .trap .malformed)
  | .exitIf, _ => (s, .trap .malformed)
  | _, _ => (s, .trap .unreachable)

/-- Run an instruction.  A merge does nothing: the edges into its block have made the assignment. -/
def Instr.run (i : Instr) : Run V W := fun s ↦
  if i.op = .phi then (s, .fall)
  else if i.isControl then if i.dst = [] then i.direct m s else (s, .trap .malformed)
  else i.apply m s

/-- Run instructions up to the first one that control does not fall through. -/
def runInstrs : List Instr → Run V W
  | [] => fun s ↦ (s, .fall)
  | i :: rest => Run.andThen (i.run m) (runInstrs rest)

/-- Run a basic block. -/
def Block.run (b : Block) : Run V W :=
  Run.andThen (runInstrs m b.instrs) fun s ↦ (s.assign b.exitCopies, .fall)

/-- Choose by the condition of a block. -/
def Block.choose (b : Block) (yes no : Run V W) : Run V W := fun s ↦
  match m.test (s.vars b.cond) with
  | some true => yes s
  | some false => no s
  | none => (s, .trap .malformed)

/-- Repeat the body of a loop until control leaves it, at most `budget` times. -/
def repeatBody (id : BlockId) (body : Run V W) : Nat → Run V W
  | 0 => fun s ↦ (s, .pause)
  | budget + 1 => fun s ↦
    match body s with
    | (s', .fall) => repeatBody id body budget s'
    | (s', .next target) =>
      if target = id then repeatBody id body budget s' else (s', .next target)
    | (s', .exit target) => if target = id then (s', .fall) else (s', .exit target)
    | stopped => stopped

/-- Run the body of a breakable block. -/
def runBreakable (id : BlockId) (body : Run V W) : Run V W := fun s ↦
  match body s with
  | (s', .exit target) => if target = id then (s', .fall) else (s', .exit target)
  | stopped => stopped

mutual

/-- Run a block with everything inside it. -/
def Tree.run (f : Function) (budget : Nat) : Tree → Run V W
  | .basic id => (f.blockAt id).run m
  | .cond id body =>
    (f.blockAt id).choose m (Forest.run f budget body)
      fun s ↦ (s.assign (f.blockAt id).aroundCopies, .fall)
  | .branch id body other =>
    (f.blockAt id).choose m (Forest.run f budget body) (Forest.run f budget other)
  | .loop id body => fun s ↦
    repeatBody id (Forest.run f budget body) budget (s.assign (f.blockAt id).entryCopies)
  | .breakable id body => runBreakable id (Forest.run f budget body)

/-- Run blocks one after another. -/
def Forest.run (f : Function) (budget : Nat) : Forest → Run V W
  | [] => fun s ↦ (s, .fall)
  | t :: ts => Run.andThen (Tree.run f budget t) (Forest.run f budget ts)

end

section Equations

variable (f : Function) (budget : Nat) (id : BlockId) (t : Tree) (body other ts : Forest)

theorem Tree.run_basic : Tree.run m f budget (.basic id) = (f.blockAt id).run m :=
  rfl

theorem Tree.run_cond : Tree.run m f budget (.cond id body) =
    (f.blockAt id).choose m (Forest.run m f budget body)
      fun s ↦ (s.assign (f.blockAt id).aroundCopies, .fall) :=
  rfl

theorem Tree.run_branch : Tree.run m f budget (.branch id body other) =
    (f.blockAt id).choose m (Forest.run m f budget body) (Forest.run m f budget other) :=
  rfl

theorem Tree.run_loop : Tree.run m f budget (.loop id body) = fun s ↦
    repeatBody id (Forest.run m f budget body) budget (s.assign (f.blockAt id).entryCopies) :=
  rfl

theorem Tree.run_breakable :
    Tree.run m f budget (.breakable id body) = runBreakable id (Forest.run m f budget body) :=
  rfl

theorem Forest.run_cons : Forest.run m f budget (t :: ts) =
    Run.andThen (Tree.run m f budget t) (Forest.run m f budget ts) :=
  rfl

end Equations

/-- How a run of a function ends. -/
inductive Outcome (V : Type) where
  | returned (values : List V)
  | trapped (reason : Trap)
  /-- A callee never comes back. -/
  | never
  /-- A loop has used up its budget. -/
  | paused
deriving DecidableEq, Repr

/-- What can be seen of a run: its effects, the world it leaves, and how it ends. -/
structure Behavior (V W : Type) where
  trace : List (Event V)
  world : W
  outcome : Outcome V

namespace Function

/-- The state a function starts in. -/
def start (f : Function) (params : List V) (world : W) : State V W :=
  { world := world
    vars := fun v ↦
      let zero := m.zero ((f.vars[v]?).getD .none)
      if v < f.params.length then params.getD v zero else zero }

/-- How a run ends at the end of a function: one that promises a result must not get there. -/
def outcome (f : Function) : Exit V → Outcome V
  | .fall => if f.result = .none then .returned [] else .trapped .unreachable
  | .ret values => .returned values
  | .trap reason => .trapped reason
  | .never => .never
  | .pause => .paused
  | .exit _ | .next _ => .trapped .malformed

/-- Run a function on parameters in a world, with a budget for every loop. -/
def behavior (f : Function) (budget : Nat) (params : List V) (world : W) : Behavior V W :=
  match f.trees? with
  | some ts =>
    let (s, exit) := Forest.run m f budget ts (f.start m params world)
    { trace := s.trace, world := s.world, outcome := f.outcome exit }
  | none => { trace := [], world := world, outcome := .trapped .malformed }

end Function

/-! ## How instructions end -/

section

variable {m} {i : Instr}

@[simp]
theorem State.assign_nil (s : State V W) : s.assign [] = s := rfl

@[simp]
theorem State.world_record (s : State V W) (i : Instr) (args : List V) :
    (s.record i args).world = s.world := by
  unfold State.record
  split <;> rfl

@[simp]
theorem State.vars_record (s : State V W) (i : Instr) (args : List V) :
    (s.record i args).vars = s.vars := by
  unfold State.record
  split <;> rfl

/-- Assignments leave other variables alone. -/
theorem State.vars_assign_of_forall_ne {s : State V W} {cs : List Copy} {v : Var}
    (h : ∀ c ∈ cs, c.dst ≠ v) : (s.assign cs).vars v = s.vars v := by
  have hnone : cs.find? (fun c ↦ c.dst = v) = none := by simpa using h
  simp only [State.assign, hnone]

/-- An assignment counts when all others to its variable assign the same. -/
theorem State.vars_assign_of_mem {s : State V W} {cs : List Copy} {c : Copy} (hc : c ∈ cs)
    (h : ∀ c' ∈ cs, c'.dst = c.dst → c'.src = c.src) :
    (s.assign cs).vars c.dst = s.vars c.src := by
  simp only [State.assign]
  split
  · rename_i c' hfind
    rw [h c' (List.mem_of_find?_eq_some hfind) (by simpa using List.find?_some hfind)]
  · rename_i hnone
    exact absurd (decide_eq_true rfl) (List.find?_eq_none.1 hnone c hc)

/-- Applying an operation falls through, traps or never comes back. -/
theorem Instr.exit_apply (i : Instr) (s : State V W) :
    (i.apply m s).2 = .fall ∨ (∃ reason, (i.apply m s).2 = .trap reason)
      ∨ (i.apply m s).2 = .never := by
  unfold Instr.apply
  dsimp only
  split
  · split
    · exact .inl rfl
    · exact .inr (.inl ⟨_, rfl⟩)
  · exact .inr (.inl ⟨_, rfl⟩)
  · exact .inr (.inr rfl)

/-- Where a branch goes, and that it makes the assignments of its edge. -/
theorem Instr.direct_branch (i : Instr) (s : State V W) :
    (∀ target, (i.direct m s).2 = .exit target →
        (i.op = .exit ∨ i.op = .exitIf) ∧ target = i.target
          ∧ (i.direct m s).1 = s.assign i.copies)
      ∧ ∀ target, (i.direct m s).2 = .next target →
        i.op = .next ∧ target = i.target ∧ (i.direct m s).1 = s.assign i.copies := by
  unfold Instr.direct
  split
  · simp
  · rename_i hop
    simp [hop, Instr.leave, eq_comm]
  · rename_i hop
    simp [hop, Instr.leave, eq_comm]
  · rename_i hop _
    split <;> simp [hop, Instr.leave, eq_comm]
  · simp
  · simp

theorem Instr.run_cases (i : Instr) (s : State V W) :
    (i.op = .phi ∧ i.run m s = (s, .fall))
      ∨ (i.op ≠ .phi ∧ i.isControl ∧ i.dst = [] ∧ i.run m s = i.direct m s)
      ∨ (i.op ≠ .phi ∧ i.isControl ∧ i.dst ≠ [] ∧ i.run m s = (s, .trap .malformed))
      ∨ (i.op ≠ .phi ∧ ¬i.isControl ∧ i.run m s = i.apply m s) := by
  unfold Instr.run
  split
  · exact .inl ⟨‹_›, rfl⟩
  · split
    · split
      · exact .inr (.inl ⟨‹_›, ‹_›, ‹_›, rfl⟩)
      · exact .inr (.inr (.inl ⟨‹_›, ‹_›, ‹_›, rfl⟩))
    · exact .inr (.inr (.inr ⟨‹_›, ‹_›, rfl⟩))

/-- Control does not fall through an instruction that ends a block. -/
theorem Instr.terminates_of_fall (h : (i.run m s).2 = .fall) : i.terminates = false := by
  by_contra hterminates
  rw [Bool.not_eq_false] at hterminates
  obtain ⟨hop, -⟩ | ⟨_, hcontrol, _, hrun⟩ | ⟨_, _, _, hrun⟩ | ⟨_, _, hrun⟩ :=
    i.run_cases (m := m) s
  · simp [Instr.terminates, hop] at hterminates
  · rw [hrun] at h
    unfold Instr.isControl at hcontrol
    unfold Instr.terminates at hterminates
    unfold Instr.direct at h
    cases hop : i.op <;> simp [hop, Instr.leave] at h hcontrol hterminates
  · rw [hrun] at h
    cases h
  · have htrap : m.step i.operation (i.args.map s.vars) s.world = .trap .unreachable :=
      m.trap_of_terminates hterminates
    rw [hrun] at h
    simp [Instr.apply, htrap] at h

/-- An instruction that leaves to behind a construct is a branch, and makes the assignments of its
edge. -/
theorem Instr.run_exit {target : BlockId} (h : (i.run m s).2 = .exit target) :
    (i.isBranch ∧ i.op ≠ .next ∧ i.dst = []) ∧ target = i.target
      ∧ (i.run m s).1 = s.assign i.copies := by
  obtain ⟨_, hrun⟩ | ⟨_, _, hdst, hrun⟩ | ⟨_, _, _, hrun⟩ | ⟨_, _, hrun⟩ := i.run_cases (m := m) s
  · rw [hrun] at h
    cases h
  · rw [hrun] at h ⊢
    obtain ⟨hop, htarget, hstate⟩ := (i.direct_branch s).1 target h
    refine ⟨?_, htarget, hstate⟩
    rcases hop with hop | hop <;> simp [Instr.isBranch, hop, hdst]
  · rw [hrun] at h
    cases h
  · rw [hrun] at h
    obtain hx | ⟨_, hx⟩ | hx := i.exit_apply (m := m) s <;> rw [hx] at h <;> cases h

/-- An instruction that goes back to a loop is a branch, and makes the assignments of its edge. -/
theorem Instr.run_next {target : BlockId} (h : (i.run m s).2 = .next target) :
    (i.isBranch ∧ i.op = .next ∧ i.dst = []) ∧ target = i.target
      ∧ (i.run m s).1 = s.assign i.copies := by
  obtain ⟨_, hrun⟩ | ⟨_, _, hdst, hrun⟩ | ⟨_, _, _, hrun⟩ | ⟨_, _, hrun⟩ := i.run_cases (m := m) s
  · rw [hrun] at h
    cases h
  · rw [hrun] at h ⊢
    obtain ⟨hop, htarget, hstate⟩ := (i.direct_branch s).2 target h
    exact ⟨by simp [Instr.isBranch, hop, hdst], htarget, hstate⟩
  · rw [hrun] at h
    cases h
  · rw [hrun] at h
    obtain hx | ⟨_, hx⟩ | hx := i.exit_apply (m := m) s <;> rw [hx] at h <;> cases h

end

/-! ## A machine for small runs -/

/-- A machine that computes with natural numbers and knows only what counting needs. -/
def counter : Machine Nat Unit where
  zero _ := 0
  test n := some (n != 0)
  step i args world :=
    match i.op, args with
    | .const, [] => .done [i.imm.toInt.toNat] world
    | .add, [a, b] => .done [a + b] world
    | .sub, [a, b] => .done [a - b] world
    | .eqz, [a] => .done [if a = 0 then 1 else 0] world
    | _, _ => .trap (if i.terminates then .unreachable else .malformed)
  world_of_pure := by
    intro i args world results world' _ h
    split at h <;> cases h <;> rfl
  returns_of_pure := by
    intro i args world _
    split <;> simp
  trap_of_terminates := by
    intro i args world hterminates
    split <;> simp_all [Instr.terminates]

end WasmBackend.Ir
