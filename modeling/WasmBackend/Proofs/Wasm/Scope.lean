import WasmBackend.Proofs.Wasm.ModuleReading

/-!
# Numbers in scope

The numbers in code name something: a branch one of the constructs around it, the other
instructions a local, a global, a function or a type.  `Scope` counts what there is to name, and
code is in scope when it names nothing else.  Nesting takes bytes, so code in scope whose bytes can
be counted has no number that does not fit.
-/

namespace WasmBackend.Wasm

/-- How much there is that code can name. -/
structure Scope where
  /-- The constructs around. -/
  labels : Nat := 0
  /-- The parameters and the locals behind them. -/
  locals : Nat
  functions : Nat
  types : Nat
  globals : Nat

namespace Scope

/-- The scope inside one more construct. -/
def inner (σ : Scope) : Scope :=
  { σ with labels := σ.labels + 1 }

/-- Everything that `σ` has is in `τ` too. -/
structure Within (σ τ : Scope) : Prop where
  labels : σ.labels ≤ τ.labels
  locals : σ.locals ≤ τ.locals
  functions : σ.functions ≤ τ.functions
  types : σ.types ≤ τ.types
  globals : σ.globals ≤ τ.globals

variable {σ τ : Scope}

theorem Within.inner (h : σ.Within τ) : σ.inner.Within τ.inner :=
  { h with labels := Nat.succ_le_succ h.labels }

/-- All there is in scope can be numbered, as can the constructs that `bytes` more bytes open. -/
structure Numbered (σ : Scope) (bytes : Nat) : Prop where
  labels : σ.labels + bytes ≤ u32Bound
  locals : σ.locals ≤ u32Bound
  functions : σ.functions ≤ u32Bound
  types : σ.types ≤ u32Bound
  globals : σ.globals ≤ u32Bound

theorem Numbered.of_le {bytes fewer : Nat} (h : σ.Numbered bytes) (hle : fewer ≤ bytes) :
    σ.Numbered fewer :=
  { h with labels := (Nat.add_le_add_left hle _).trans h.labels }

/-- A construct takes a byte of its own. -/
theorem Numbered.inner {bytes fewer : Nat} (h : σ.Numbered bytes) (hlt : fewer < bytes) :
    σ.inner.Numbered fewer :=
  { h with
    labels := by
      have := h.labels
      simp only [Scope.inner]
      omega }

end Scope

mutual

/-- The instruction names only what is in scope. -/
def Instruction.InScope (σ : Scope) : Instruction → Prop
  | .block body | .loop body | .ifThen body => InstructionsInScope σ.inner body
  | .ifElse body other => InstructionsInScope σ.inner body ∧ InstructionsInScope σ.inner other
  | .br n | .brIf n => n < σ.labels
  | .call n => n < σ.functions
  | .callIndirect n => n < σ.types
  | .localGet n | .localSet n => n < σ.locals
  | .globalGet n | .globalSet n => n < σ.globals
  | _ => True

/-- The instructions name only what is in scope. -/
def InstructionsInScope (σ : Scope) : List Instruction → Prop
  | [] => True
  | i :: rest => i.InScope σ ∧ InstructionsInScope σ rest

end

section InScope

variable {σ τ : Scope} {is js : List Instruction}

theorem instructionsInScope_iff : InstructionsInScope σ is ↔ ∀ i ∈ is, i.InScope σ := by
  induction is with
  | nil => simp [InstructionsInScope]
  | cons i is ih => simp [InstructionsInScope, ih]

@[simp]
theorem instructionsInScope_reverse :
    InstructionsInScope σ is.reverse ↔ InstructionsInScope σ is := by
  simp [instructionsInScope_iff]

mutual

theorem Instruction.InScope.mono {σ τ : Scope} (h : σ.Within τ) :
    ∀ i : Instruction, i.InScope σ → i.InScope τ := by
  intro i hi
  cases i with
  | block body => exact InstructionsInScope.mono h.inner body hi
  | loop body => exact InstructionsInScope.mono h.inner body hi
  | ifThen body => exact InstructionsInScope.mono h.inner body hi
  | ifElse body other =>
    exact ⟨InstructionsInScope.mono h.inner body hi.1, InstructionsInScope.mono h.inner other hi.2⟩
  | br n => exact lt_of_lt_of_le hi h.labels
  | brIf n => exact lt_of_lt_of_le hi h.labels
  | call n => exact lt_of_lt_of_le hi h.functions
  | callIndirect n => exact lt_of_lt_of_le hi h.types
  | localGet n => exact lt_of_lt_of_le hi h.locals
  | localSet n => exact lt_of_lt_of_le hi h.locals
  | globalGet n => exact lt_of_lt_of_le hi h.globals
  | globalSet n => exact lt_of_lt_of_le hi h.globals
  | _ => trivial

theorem InstructionsInScope.mono {σ τ : Scope} (h : σ.Within τ) :
    ∀ is : List Instruction, InstructionsInScope σ is → InstructionsInScope τ is := by
  intro is his
  cases is with
  | nil => trivial
  | cons i is =>
    exact ⟨Instruction.InScope.mono h i his.1, InstructionsInScope.mono h is his.2⟩

end

mutual

theorem Instruction.InScope.fits {σ : Scope} :
    ∀ i : Instruction, σ.Numbered i.encode.length → i.InScope σ → i.Fits := by
  intro i h hi
  cases i with
  | block body =>
    refine InstructionsInScope.fits body (h.inner ?_) hi
    simp [Instruction.encode]
    omega
  | loop body =>
    refine InstructionsInScope.fits body (h.inner ?_) hi
    simp [Instruction.encode]
    omega
  | ifThen body =>
    refine InstructionsInScope.fits body (h.inner ?_) hi
    simp [Instruction.encode]
    omega
  | ifElse body other =>
    refine ⟨InstructionsInScope.fits body (h.inner ?_) hi.1,
      InstructionsInScope.fits other (h.inner ?_) hi.2⟩
    · simp [Instruction.encode]
      omega
    · simp [Instruction.encode]
      omega
  | br n => exact lt_of_lt_of_le hi ((Nat.le_add_right _ _).trans h.labels)
  | brIf n => exact lt_of_lt_of_le hi ((Nat.le_add_right _ _).trans h.labels)
  | call n => exact lt_of_lt_of_le hi h.functions
  | callIndirect n => exact lt_of_lt_of_le hi h.types
  | localGet n => exact lt_of_lt_of_le hi h.locals
  | localSet n => exact lt_of_lt_of_le hi h.locals
  | globalGet n => exact lt_of_lt_of_le hi h.globals
  | globalSet n => exact lt_of_lt_of_le hi h.globals
  | _ => trivial

theorem InstructionsInScope.fits {σ : Scope} :
    ∀ is : List Instruction, σ.Numbered (encodeInstructions is).length →
      InstructionsInScope σ is → InstructionsFit is := by
  intro is h his
  cases is with
  | nil => trivial
  | cons i is =>
    rw [encodeInstructions, List.length_append] at h
    exact ⟨Instruction.InScope.fits i (h.of_le (Nat.le_add_right _ _)) his.1,
      InstructionsInScope.fits is (h.of_le (Nat.le_add_left _ _)) his.2⟩

end

end InScope

end WasmBackend.Wasm
