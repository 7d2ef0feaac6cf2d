import WasmBackend.Text

/-!
# Failures of a compilation

Findings about the source are diagnostics and never stop a phase.  A `Failure` does: a broken
promise between phases, a cancelled run, or a computation that left its bounds.  `Stage σ` is a
computation over a state `σ` that may fail; the state reached so far survives the failure, so
diagnostics and trace events recorded before it are not lost.
-/

namespace WasmBackend

/-- Why a computation stopped without a result. -/
inductive Failure where
  /-- An invariant between phases is broken; the text names it. -/
  | internal (message : Text)
  /-- The run was cancelled from outside. -/
  | canceled
  /-- A node, slot or table entry was used that the checked program promised and does not have. -/
  | fault
  /-- A recursion went deeper than its bound, which only self-containing inputs do. -/
  | exhausted
deriving DecidableEq, Repr, Inhabited

/-- A stateful computation that may fail and keeps its state when it does. -/
abbrev Stage (σ : Type) := ExceptT Failure (StateM σ)

namespace Stage

variable {σ τ α : Type}

/-- Stop with a broken invariant. -/
def internal (message : Text) : Stage σ α :=
  throw (.internal message)

/-- Stop unless the value is there. -/
def some! (x : Option α) : Stage σ α :=
  match x with
  | some a => pure a
  | none => throw .fault

/-- Run a computation on a part of the state. -/
def zoom (view : σ → τ) (update : τ → σ → σ) (x : Stage τ α) : Stage σ α := fun s =>
  let (r, t) := (x (view s) : Except Failure α × τ)
  (r, update t s)

/-- Run a computation that cannot change the state. -/
def ofExcept (x : Except Failure α) : Stage σ α := fun s => (x, s)

/-- Run from a given state. -/
def runFrom (x : Stage σ α) (s : σ) : Except Failure α × σ := x s

end Stage

/-- The value, or a fault where it is missing. -/
def orFault {α : Type} (x : Option α) : Except Failure α :=
  match x with
  | some a => .ok a
  | none => .error .fault

end WasmBackend
