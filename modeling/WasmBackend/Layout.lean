import WasmBackend.Diagnostic.Basic
import WasmBackend.Types.Store

/-!
# Memory layouts

The layout of an aggregate is packed: each member starts where the one before ends.  A struct
member is laid out inline, so its type has to be laid out first.  `Layouts` keeps the aggregates
that wait, each with the struct types it still waits for; `resolve` lays out whatever waits for
nothing until no more can be done, and reports the rest as circular.
-/

namespace WasmBackend

/-- Aggregates in registration order, each with the struct types it waits for, over the store of
their types. -/
structure Layouts where
  store : TypeStore
  pending : List (Handle × List Handle) := []
deriving DecidableEq, Inhabited

namespace Layouts

abbrev M := Stage Layouts

/-- Run a computation on the store. -/
def onStore {α : Type} (x : TypeStore.M α) : M α :=
  Stage.zoom Layouts.store (fun store s => { s with store := store }) x

/-- The registered aggregates in order. -/
def registered (s : Layouts) : List Handle :=
  s.pending.map Prod.fst

/-- The types an aggregate waits for. -/
def waitsFor (s : Layouts) (h : Handle) : List Handle :=
  (s.pending.lookup h).getD []

/-- Register a type and everything it contains by value, at most `depth` levels deep.  Types that
are no aggregates are laid out as they are. -/
def addWithin : Nat → Handle → M Unit
  | 0, _ => throw .exhausted
  | depth + 1, h => do
    let kind ← Stage.ofExcept ((← get).store.kindOf h)
    if !kind.isAggregate then return
    if ((← get).pending.lookup h).isSome then return
    let t ← onStore (TypeStore.getType h)
    if t.resolved then return
    modify fun s => { s with pending := s.pending ++ [(h, t.deps)] }
    for d in t.deps do
      addWithin depth d

/-- How deep containment by value is followed; only types that grow without end go deeper. -/
def containmentDepth : Nat := 100000

/-- Register a type and everything it contains by value. -/
def add (h : Handle) : M Unit :=
  addWithin containmentDepth h

/-- The end of the part laid out so far. -/
structure Cursor where
  offset : Nat := 0
  slot : Nat := 0
  members : List Member := []
  layout : List Slot := []

/-- Lay out one more member. -/
def placeMember (owner : Text) (c : Cursor) (m : Member) : M Cursor := do
  let t ← onStore (TypeStore.getType m.type)
  if t.kind = .struct ∧ !t.resolved then
    Stage.internal ("layout: " ++ owner ++ "." ++ m.name ++ " depends on unresolved " ++ t.name)
  let entries ← Stage.ofExcept t.entries
  let size ← Stage.ofExcept t.valueSize
  return {
    offset := c.offset + size
    slot := c.slot + entries.length
    members := c.members ++ [{ m with offset := c.offset, slotIndex := c.slot }]
    layout := c.layout ++ entries.map fun e => { e with offset := c.offset + e.offset } }

/-- Lay out an aggregate whose struct members are laid out. -/
def compute (t : ConcreteType) : M ConcreteType := do
  let c ← t.members.foldlM (placeMember t.name) {}
  if 0x100000000 ≤ c.offset then
    Stage.internal ("layout: " ++ t.name ++ " is too large: out of range")
  let laid :=
    { t with size := c.offset, members := c.members, layout := c.layout, resolved := true }
  modify fun s => { s with store := s.store.setType laid }
  return laid

/-- Lay out an aggregate if it waits for nothing; tells whether it did. -/
def settle (h : Handle) : M Bool := do
  let t ← onStore (TypeStore.getType h)
  if t.resolved ∨ (← get).waitsFor h ≠ [] then return false
  discard (compute t)
  modify fun s =>
    { s with pending := s.pending.map fun (other, deps) => (other, deps.filter (· ≠ h)) }
  return true

/-- One pass over the registered aggregates; tells whether any was laid out. -/
def settleAll : M Bool := do
  (← get).registered.foldlM (fun progress h => return (← settle h) || progress) false

/-- Passes until one makes no progress, at most `rounds` of them. -/
def settleRounds : Nat → M Unit
  | 0 => pure ()
  | rounds + 1 => do
    if ← settleAll then settleRounds rounds

/-- Follow from `t` the first member that is waited for until a type repeats.  Gives the steps
taken and the type they end at. -/
def chainFrom : Nat → List Handle → List Text → ConcreteType → M (List Text × ConcreteType)
  | 0, _, steps, t => return (steps, t)
  | fuel + 1, seen, steps, t => do
    if t.handle ∈ seen then return (steps ++ [t.name], t)
    let waiting := (← get).waitsFor t.handle
    match t.members.find? fun m => m.type ∈ waiting with
    | none => return (steps, t)
    | some m =>
      let next ← onStore (TypeStore.getType m.type)
      chainFrom fuel (t.handle :: seen) (steps ++ [t.name ++ "." ++ m.name]) next

/-- The chain of members that keeps a type from being laid out, and the type it ends at. -/
def chain (t : ConcreteType) : M (Text × ConcreteType) := do
  let (steps, last) ← chainFrom ((← get).store.size + 1) [] [] t
  return (Text.join " -> " steps, last)

/-- The finding about a type that cannot be laid out. -/
def circular (t : ConcreteType) : M Diagnostic := do
  let (steps, last) ← chain t
  let message :=
    if last.handle = t.handle then
      "type " ++ t.name ++ " contains itself by value: " ++ steps
    else
      "type " ++ t.name ++ " depends on value cycle through " ++ last.name ++ ": " ++ steps
  return Diagnostic.error .circularLayout t.span message
    [⟨t.span, "store one of the members behind a pointer or class reference"⟩]

/-- Lay out everything that can be; gives the aggregates left over with a finding for each. -/
def resolve : M (List (Handle × Diagnostic)) := do
  settleRounds ((← get).pending.length + 1)
  (← get).registered.filterMapM fun h => do
    let t ← onStore (TypeStore.getType h)
    if t.resolved then return none
    return some (h, ← circular t)

end Layouts

end WasmBackend
