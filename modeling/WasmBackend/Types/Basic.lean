import WasmBackend.Failure
import WasmBackend.Program.Basic

/-!
# Concrete types

A `Handle` names a type whose generic parameters are all filled in; handle 0 is the empty type.  A
`ConcreteType` is what the handle stands for.  Values of struct type are laid out inline, so their
size and slots are known only once the layout is resolved; values of every other type have a fixed
size.
-/

namespace WasmBackend

/-- The number of a concrete type. -/
abbrev Handle := Nat

/-- The handle of the empty type. -/
abbrev Handle.void : Handle := 0

/-- What a type is made of; codes from 6 on name nothing. -/
inductive TypeKind where
  | void
  | primitive
  /-- Values are laid out inline and copied. -/
  | struct
  /-- Values are references to an instance on the heap. -/
  | cls
  | pointer
  | function
  | unknown (code : UInt8) (outside : 5 < code)
deriving DecidableEq, Repr, Inhabited

namespace TypeKind

def ofCode (c : UInt8) : TypeKind :=
  if h : 5 < c then unknown c h
  else [void, primitive, struct, cls, pointer, function].getD c.toNat void

def name : TypeKind → Text
  | void => "void"
  | primitive => "primitive"
  | struct => "struct"
  | cls => "class"
  | pointer => "pointer"
  | function => "func"
  | unknown c _ => "Kind(" ++ Text.ofNat c.toNat ++ ")"

/-- Whether values have members and a layout to resolve. -/
def isAggregate : TypeKind → Bool
  | struct | cls => true
  | _ => false

end TypeKind

/-- One primitive of a memory layout. -/
structure Slot where
  offset : Nat
  prim : Prim
deriving DecidableEq, Repr, Inhabited

structure Member where
  name : Text
  type : Handle
  /-- The byte offset inside the value or instance. -/
  offset : Nat := 0
  /-- The first slot inside a struct value. -/
  slotIndex : Nat := 0
deriving DecidableEq, Inhabited

/-- A type without generic parameters.  Offsets, size and layout of an aggregate are filled in
when its layout is resolved; everything else is fixed from the start. -/
structure ConcreteType where
  handle : Handle := 0
  name : Text := ""
  kind : TypeKind := .void
  span : Span := {}
  prim : Prim := .none
  /-- The pointed-to type. -/
  elem : Handle := 0
  params : List Handle := []
  result : Handle := 0
  /-- What the generic parameters stand for. -/
  args : List Handle := []
  decl : DeclId := 0
  members : List Member := []
  methods : List (Text × DeclId) := []
  operators : List (Operator × DeclId) := []
  /-- The user's constructor, or 0 when members are assigned directly. -/
  init : DeclId := 0
  /-- The struct-typed members this type contains by value. -/
  deps : List Handle := []
  resolved : Bool := false
  /-- The size of a struct value or of a class instance. -/
  size : Nat := 0
  layout : List Slot := []
deriving DecidableEq, Inhabited

namespace ConcreteType

/-- The empty type. -/
def void : ConcreteType := { name := "void", resolved := true }

def member? (t : ConcreteType) (name : Text) : Option Member :=
  t.members.find? fun m => m.name = name

def method? (t : ConcreteType) (name : Text) : Option DeclId :=
  t.methods.lookup name

def operator? (t : ConcreteType) (op : Operator) : Option DeclId :=
  t.operators.lookup op

/-- The type itself when its layout may be used. -/
def laidOut (t : ConcreteType) : Except Failure ConcreteType :=
  if t.resolved then .ok t
  else .error (.internal ("layout of " ++ t.name ++ " used before resolution"))

/-- The bytes a value takes in memory. -/
def valueSize (t : ConcreteType) : Except Failure Nat :=
  match t.kind with
  | .void => .ok 0
  | .primitive => .ok t.prim.size
  | .struct => return (← t.laidOut).size
  | .cls | .pointer | .function => .ok Prim.pointerSize
  | .unknown _ _ => .ok 0

/-- The memory layout of a value. -/
def entries (t : ConcreteType) : Except Failure (List Slot) :=
  match t.kind with
  | .void => .ok []
  | .primitive => .ok [⟨0, t.prim⟩]
  | .struct => return (← t.laidOut).layout
  | .cls | .pointer | .function => .ok [⟨0, .pointer⟩]
  | .unknown _ _ => .ok []

/-- The primitive of every variable a value takes. -/
def slots (t : ConcreteType) : Except Failure (List Prim) :=
  return (← t.entries).map Slot.prim

/-- The number of variables a value takes. -/
def slotCount (t : ConcreteType) : Except Failure Nat :=
  return (← t.entries).length

end ConcreteType

/-- Put a pair into an association list: a known key gets the new value in place, an unknown one
goes to the end. -/
def assocInsert {α β : Type} [DecidableEq α] (key : α) (value : β) : List (α × β) → List (α × β)
  | [] => [(key, value)]
  | (k, v) :: rest =>
    if k = key then (k, value) :: rest else (k, v) :: assocInsert key value rest

end WasmBackend
