import WasmBackend.Ir.Function

/-!
# Where values are kept

Before code is generated for a function, every variable is looked up once: how often it is used,
whether it has to live in a local, and whether it is cheaper to compute again at each use.  A value
has to live in a local when an edge assigns or reads it, a branch tests it, or a block other than
the defining one reads it.
-/

namespace WasmBackend.Wasm

open Ir (Block BlockId Copy Function Instr Var)

/-- What is known about the variables of a function. -/
structure Usage where
  /-- The number of uses. -/
  uses : Array Nat
  /-- Whether the value has to live in a local. -/
  forced : Array Bool
  /-- The block of the last definition; 0 for none. -/
  home : Array BlockId
  /-- The instructions that are repeated at each use of their result. -/
  replayed : Array (Option Instr)
  /-- Every use as an argument, with its block. -/
  reads : List (Var × BlockId) := []
deriving Inhabited

namespace Usage

/-- Nothing is known about `n` variables. -/
def ofSize (n : Nat) : Usage :=
  { uses := .replicate n 0
    forced := .replicate n false
    home := .replicate n 0
    replayed := .replicate n none }

/-- Check that a variable exists. -/
def check (u : Usage) (v : Var) : Except Failure Unit :=
  if v < u.uses.size then .ok () else .error .fault

def use (u : Usage) (v : Var) : Usage :=
  { u with uses := u.uses.modify v (· + 1) }

def force (u : Usage) (v : Var) : Usage :=
  { u with forced := u.forced.set! v true }

def addCopies (u : Usage) (cs : List Copy) : Except Failure Usage :=
  cs.foldlM
    (fun u c => do
      u.check c.dst
      u.check c.src
      return ((u.force c.dst).force c.src).use c.src)
    u

/-- Record a definition. -/
def addDef (b : BlockId) (i : Instr) (u : Usage) (v : Var) : Except Failure Usage := do
  u.check v
  let u := { u with home := u.home.set! v b }
  let u := if i.op = .phi then u.force v else u
  return if i.isReproducible then { u with replayed := u.replayed.set! v (some i) } else u

/-- Record a use as an argument. -/
def addRead (b : BlockId) (u : Usage) (v : Var) : Except Failure Usage := do
  u.check v
  return { u.use v with reads := (v, b) :: u.reads }

def addInstr (b : BlockId) (u : Usage) (i : Instr) : Except Failure Usage := do
  let u ← i.dst.foldlM (addDef b i) u
  let u ← if i.op = .phi then pure u else i.args.foldlM (addRead b) u
  u.addCopies i.copies

def addBlock (u : Usage) (id : BlockId) (b : Block) : Except Failure Usage := do
  let u ←
    if b.kind = .cond ∨ b.kind = .branch then do
      u.check b.cond
      pure ((u.use b.cond).force b.cond)
    else pure u
  let u ← u.addCopies b.exitCopies
  let u ← u.addCopies b.aroundCopies
  let u ← u.addCopies b.entryCopies
  b.instrs.foldlM (addInstr id) u

/-- What is known about the variables of a function. -/
def ofFunction (f : Function) : Except Failure Usage := do
  let blocks ← f.walk
  let u ← blocks.foldlM (fun u (id, b) => u.addBlock id b) (ofSize f.vars.size)
  return u.reads.foldl (fun u (v, b) => if u.home[v]? = some b then u else u.force v) u

/-- The instruction to repeat for a variable. -/
def replay? (u : Usage) (v : Var) : Option Instr :=
  (u.replayed[v]?).join

/-- Whether a variable is kept in a local from its definition on. -/
def inLocal (u : Usage) (params : Nat) (v : Var) : Bool :=
  v < params
    || ((u.replay? v).isNone && (u.forced.getD v false || 1 < u.uses.getD v 0))

end Usage

end WasmBackend.Wasm
