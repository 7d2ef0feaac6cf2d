import WasmBackend.Double.Decimal
import WasmBackend.Ir.CodeUnit
import WasmBackend.Text.Printable
import WasmBackend.Text.Cluster

/-!
# Listings

The text form of units and functions: one line per instruction, nested blocks indented, and the
primitives of results in a column of their own.
-/

namespace WasmBackend.Ir

/-- The column where result primitives start. -/
def noteColumn : Nat := 36

def varList (vs : List Var) : Text :=
  Text.join ", " (vs.map fun v => "v" ++ Text.ofNat v)

def Copy.render (c : Copy) : Text :=
  "v" ++ Text.ofNat c.dst ++ "<-v" ++ Text.ofNat c.src

def renderCopies (cs : List Copy) : Text :=
  "[" ++ Text.join " " (cs.map Copy.render) ++ "]"

def Signature.render (s : Signature) : Text :=
  let params := "(" ++ Text.join ", " (s.params.map fun p => (p.name : Text)) ++ ")"
  if s.result = .none then params else params ++ " " ++ s.result.name

/-- What stands between the opcode and the arguments; `none` when no arguments follow. -/
def Instr.operands (i : Instr) : Except Failure (Text × Bool) :=
  match i.op with
  | .const =>
    if i.storage.isFloat then .ok (" " ++ i.float.general, false)
    else .ok (" " ++ Text.ofInt i.imm.toInt, false)
  | .convert => .ok ("." ++ i.source.name ++ "." ++ i.storage.name, true)
  | .load | .store => .ok ("." ++ i.storage.name ++ " +" ++ Text.ofNat i.offset.toNat, true)
  | .addr =>
    .ok (" " ++ i.zone.name ++ "[" ++ Text.ofInt i.index ++ "]+" ++ Text.ofInt i.imm.toInt, false)
  | .call | .funcRef | .native | .globalGet | .globalSet => .ok (" " ++ i.callee, true)
  | .exit | .next | .exitIf => .ok (" b" ++ Text.ofNat i.target, true)
  | .callIndirect =>
    match i.sig with
    | some sig => .ok (" " ++ sig.render, true)
    | none => .error .fault
  | _ => .ok (if i.storage = .none then "" else "." ++ i.storage.name, true)

/-- One instruction without the primitives of its results. -/
def Instr.render (i : Instr) : Except Failure Text := do
  let (operands, withArgs) ← i.operands
  let results : Text := if i.dst.isEmpty then "" else varList i.dst ++ " = "
  let args : Text := if withArgs && !i.args.isEmpty then " " ++ varList i.args else ""
  return results ++ i.op.name ++ operands ++ args

/-- A line with a note in the note column, or one blank behind a longer text. -/
def annotated (text note : Text) : Text :=
  if note = "" then text ++ "\n"
  else
    let padded := if text.width < noteColumn then text.fillRight noteColumn else text ++ " "
    padded ++ "; " ++ note ++ "\n"

/-- The lines of an instruction. -/
def Function.renderInstr (f : Function) (indent : Text) (i : Instr) : Except Failure Text := do
  let text ← i.render
  let prims ← i.dst.mapM f.varPrim
  let note := Text.join ", " (prims.map fun p => (p.name : Text))
  let line := annotated (indent ++ "  " ++ text) note
  if i.copies.isEmpty then return line
  return line ++ indent ++ "    copies " ++ renderCopies i.copies ++ "\n"

/-- The lines of blocks at an indentation, at most `depth` levels deep. -/
def Function.renderBlocks (f : Function) :
    Nat → Text → List BlockId → Except Failure (List Text)
  | 0, _, _ => .error .exhausted
  | depth + 1, indent, ids => do
    let deeper := indent ++ "  "
    let parts ← ids.mapM fun id => do
      let b ← f.block id
      let label := indent ++ "b" ++ Text.ofNat id ++ ":"
      match b.kind with
      | .basic => do
        let lines ← b.instrs.mapM (f.renderInstr indent)
        let exits : List Text :=
          if b.exitCopies.isEmpty then []
          else [indent ++ "  exit copies " ++ renderCopies b.exitCopies ++ "\n"]
        return (label ++ "\n") :: (lines ++ exits)
      | .cond | .branch => do
        let body ← renderBlocks f depth deeper b.body
        let other ←
          if b.kind = .branch then do
            pure ((indent ++ "else\n") :: (← renderBlocks f depth deeper b.otherwise))
          else pure []
        let around : List Text :=
          if b.aroundCopies.isEmpty then []
          else [indent ++ "around copies " ++ renderCopies b.aroundCopies ++ "\n"]
        return (label ++ " if v" ++ Text.ofNat b.cond ++ "\n") ::
          (body ++ (other ++ (around ++ [indent ++ "end\n"])))
      | .loop | .breakable => do
        let entry : Text :=
          if b.entryCopies.isEmpty then ""
          else " entry copies " ++ renderCopies b.entryCopies
        let body ← renderBlocks f depth deeper b.body
        return (label ++ " " ++ b.kind.name ++ entry ++ "\n") :: (body ++ [indent ++ "end\n"])
      | .unknown _ _ => return []
    return parts.flatten

/-- The listing of a function. -/
def Function.render (f : Function) : Except Failure Text := do
  let flags : List (Bool × Text) :=
    [(f.exportName ≠ "", "export=" ++ f.exportName), (f.inlined, "inline"), (f.inTable, "table")]
  let flags := (flags.filter Prod.fst).map Prod.snd
  let header := "func " ++ f.name ++ f.signature.render
  let header := if flags.isEmpty then header else header ++ " " ++ Text.join " " flags
  return header ++ "\n" ++ Text.concat (← f.renderBlocks (f.treeDepth + 1) "  " f.body)

/-- Lines numbered from 0. -/
def numberedLines {α : Type} (xs : List α) (line : Nat → α → Text) : Text :=
  Text.concat (xs.zipIdx.map fun (x, i) => line i x ++ "\n")

/-- The listing of a unit. -/
def CodeUnit.render (u : CodeUnit) : Except Failure Text := do
  let imports := Text.concat (u.imports.map fun i =>
    "import " ++ i.name ++ " = " ++ importModule ++ "." ++ i.symbol ++ i.sig.render ++ "\n")
  let data := numberedLines u.segments fun i bytes =>
    "data d" ++ Text.ofNat i ++ " = " ++ (Text.mk bytes).quoted
  let globals := numberedLines u.globals fun i g =>
    "global g" ++ Text.ofNat i ++ " " ++ g.name ++ " size=" ++ Text.ofInt g.size
      ++ (if g.mutable then " mut" else "")
  let scratch := numberedLines u.scratch fun i s =>
    "scratch s" ++ Text.ofNat i ++ " pos=" ++ Text.ofInt s.position ++ " " ++ s.prim.name
  let table : Text :=
    if u.table.isEmpty then "" else "table [" ++ Text.join ", " u.table ++ "]\n"
  let funcs ← u.funcs.mapM Function.render
  return imports ++ data ++ globals ++ scratch ++ table ++ Text.concat funcs

end WasmBackend.Ir
