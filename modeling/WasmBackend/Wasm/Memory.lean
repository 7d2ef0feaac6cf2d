import WasmBackend.Ir.CodeUnit

/-!
# Static memory

Data segments, globals and scratch slots get fixed addresses, each zone from a multiple of 16 on;
the heap starts behind them.  Address 0 stays unused, so that no pointer to data is null.  Positions
are counted in 64 bits, so sizes without sense wrap around before the addresses are checked.
-/

namespace WasmBackend.Wasm

open Ir (CodeUnit Zone)

/-- The bytes of one page of linear memory. -/
def pageSize : Nat := 65536

/-- Where data starts. -/
def dataBase : Int64 := 16

/-- What every zone is aligned to. -/
def zoneAlign : Int64 := 16

/-- The bytes of a scratch slot, which fit the widest primitive. -/
def scratchSlotSize : Int64 := 8

/-- The addresses of everything static. -/
structure MemoryPlan where
  segments : List UInt32
  globals : List UInt32
  scratch : List UInt32
  /-- The first address of the heap. -/
  heapBase : UInt32
deriving DecidableEq, Repr, Inhabited

/-- The next multiple of `a`. -/
def alignUp (n a : Int64) : Int64 :=
  (n + a - 1) / a * a

/-- A position as an address. -/
def toAddress (n : Int64) : Except Failure UInt32 :=
  if 0 ≤ n.toInt ∧ n.toInt < 0x100000000 then .ok n.toInt.toNat.toUInt32
  else .error (.internal ("wasm: address " ++ Text.ofInt n.toInt ++ " does not fit in 32 bits"))

/-- The addresses of entries with these sizes one behind the other, and the end of the last. -/
def placeEntries (start : Int64) : List Int64 → Except Failure (List UInt32 × Int64)
  | [] => .ok ([], start)
  | size :: rest => do
    let address ← toAddress start
    let (addresses, stop) ← placeEntries (start + size) rest
    return (address :: addresses, stop)

namespace MemoryPlan

/-- The memory of a unit. -/
def ofUnit (u : CodeUnit) : Except Failure MemoryPlan := do
  let (segments, stop) ← placeEntries dataBase (u.segments.map fun s => Int64.ofNat s.length)
  let (globals, stop) ←
    placeEntries (alignUp stop zoneAlign) (u.globals.map fun g => Int64.ofInt g.size)
  let (scratch, stop) ←
    placeEntries (alignUp stop zoneAlign) (u.scratch.map fun _ => scratchSlotSize)
  return ⟨segments, globals, scratch, ← toAddress (alignUp stop zoneAlign)⟩

/-- The pages that hold everything below the heap. -/
def pages (m : MemoryPlan) : UInt32 :=
  ((m.heapBase.toNat + pageSize - 1) / pageSize).toUInt32

/-- The addresses of a zone's entries. -/
def zoneEntries (m : MemoryPlan) : Zone → List UInt32
  | .data => m.segments
  | .global => m.globals
  | .scratch => m.scratch
  | .unknown _ _ => []

/-- The address `imm` bytes into an entry. -/
def address (m : MemoryPlan) (zone : Zone) (index : Int) (imm : Int64) :
    Except Failure UInt32 :=
  match (if index < 0 then none else (m.zoneEntries zone)[index.toNat]?) with
  | none =>
    .error (.internal ("wasm: " ++ zone.name ++ " entry " ++ Text.ofInt index ++ " out of range"))
  | some start =>
    if 0 ≤ imm.toInt ∧ imm.toInt < 0x100000000 then .ok (start + imm.toInt.toNat.toUInt32)
    else
      .error (.internal ("wasm: negative offset " ++ Text.ofInt imm.toInt ++ " into " ++ zone.name
        ++ " entry " ++ Text.ofInt index))

end MemoryPlan

end WasmBackend.Wasm
