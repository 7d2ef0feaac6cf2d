import WasmBackend.Double.Basic
import WasmBackend.Text
import WasmBackend.Moment

/-!
# Shapes of stored data

Programs and cached modules are stored as trees of values.  A `Shape` says what a tree looks like:
which fields a record has, under which keys, and which of them are left out when they are zero.  A
type is stored by naming its fields once, in a list of `Column`s; reading and writing follow from
that.
-/

namespace WasmBackend.Storage

mutual

/-- What a stored value looks like. -/
inductive Shape where
  | bool
  /-- An unsigned number of so many bytes. -/
  | word (bytes : Nat)
  | int64
  | double
  | text
  | bytes
  | moment
  | list (elem : Shape)
  | record (fields : Fields)
  /-- A record or nothing. -/
  | optional (fields : Fields)

/-- The fields of a record in order. -/
inductive Fields where
  | nil
  /-- A field under a key; `always` tells whether it is written even when it is zero. -/
  | cons (key : Text) (always : Bool) (shape : Shape) (rest : Fields)

end

instance : Inhabited Shape := ⟨.bool⟩

/-- The keys and shapes of fields in order. -/
def Fields.toList : Fields → List (Text × Shape)
  | .nil => []
  | .cons key _ shape rest => (key, shape) :: rest.toList

/-- A stored value, without its shape. -/
inductive Datum where
  /-- The missing optional record. -/
  | nothing
  | bool (b : Bool)
  | num (n : Int)
  | double (d : Double)
  | text (t : Text)
  | bytes (bs : List UInt8)
  | moment (t : Instant)
  /-- The items of a list; `spare` are items of an earlier, longer list in its place. -/
  | list (items spare : List Datum)
  /-- The fields in the order of the shape. -/
  | record (fields : List Datum)
deriving Inhabited

namespace Datum

/-- Whether a value counts as zero: nothing, false, 0, a zero of either sign, or empty. -/
def isZero : Datum → Bool
  | nothing => true
  | bool b => !b
  | num n => n = 0
  | double d => d.isZero
  | text t => t.isEmpty
  | bytes bs => bs.isEmpty
  | moment _ => false
  | list items _ => items.isEmpty
  | record _ => false

/-- The items of a list. -/
def items : Datum → List Datum
  | list vs _ => vs
  | _ => []

/-- The items of a list and the spare ones behind them. -/
def pool : Datum → List Datum
  | list vs spare => vs ++ spare
  | _ => []

end Datum

mutual

/-- The zero of a shape. -/
def Shape.zero : Shape → Datum
  | .bool => .bool false
  | .word _ => .num 0
  | .int64 => .num 0
  | .double => .double .zero
  | .text => .text ""
  | .bytes => .bytes []
  | .moment => .moment {}
  | .list _ => .list [] []
  | .record fields => .record fields.zeros
  | .optional _ => .nothing

/-- The zeros of fields. -/
def Fields.zeros : Fields → List Datum
  | .nil => []
  | .cons _ _ shape rest => shape.zero :: rest.zeros

end

/-- Types that are stored. -/
class Stored (α : Type) where
  shape : Shape
  toDatum : α → Datum
  /-- The value read back; a tree of another shape gives a zero. -/
  ofDatum : Datum → α

export Stored (toDatum ofDatum)

instance : Stored Bool where
  shape := .bool
  toDatum := .bool
  ofDatum
    | .bool b => b
    | _ => false

instance : Stored UInt16 where
  shape := .word 2
  toDatum n := .num n.toNat
  ofDatum
    | .num n => n.toNat.toUInt16
    | _ => 0

instance : Stored UInt32 where
  shape := .word 4
  toDatum n := .num n.toNat
  ofDatum
    | .num n => n.toNat.toUInt32
    | _ => 0

instance : Stored Int64 where
  shape := .int64
  toDatum n := .num n.toInt
  ofDatum
    | .num n => .ofInt n
    | _ => 0

instance : Stored Double where
  shape := .double
  toDatum := .double
  ofDatum
    | .double d => d
    | _ => .zero

instance : Stored Text where
  shape := .text
  toDatum := .text
  ofDatum
    | .text t => t
    | _ => ""

instance : Stored Instant where
  shape := .moment
  toDatum := .moment
  ofDatum
    | .moment t => t
    | _ => {}

instance {α : Type} [Stored α] : Stored (List α) where
  shape := .list (Stored.shape α)
  toDatum xs := .list (xs.map toDatum) []
  ofDatum v := v.items.map ofDatum

/-- A kind that is stored as its code, one byte. -/
@[reducible]
def storedByCode {α : Type} (code : α → UInt8) (ofCode : UInt8 → α) : Stored α where
  shape := .word 1
  toDatum k := .num (code k).toNat
  ofDatum
    | .num n => ofCode n.toNat.toUInt8
    | _ => ofCode 0

/-- One field of a stored type. -/
structure Column (σ : Type) where
  key : Text
  /-- Whether it is written even when it is zero. -/
  always : Bool
  shape : Shape
  get : σ → Datum
  set : Datum → σ → σ

/-- The field that is left out when it is zero. -/
def column {σ α : Type} [Stored α] (key : Text) (get : σ → α) (set : α → σ → σ) : Column σ :=
  ⟨key, false, Stored.shape α, fun s => toDatum (get s), fun v s => set (ofDatum v) s⟩

/-- The field that is always written. -/
def fixedColumn {σ α : Type} [Stored α] (key : Text) (get : σ → α) (set : α → σ → σ) : Column σ :=
  { column key get set with always := true }

/-- The shape of fields. -/
def fieldsOf {σ : Type} : List (Column σ) → Fields
  | [] => .nil
  | c :: rest => .cons c.key c.always c.shape (fieldsOf rest)

/-- Fill the fields of a record from values. -/
def fillColumns {σ : Type} (columns : List (Column σ)) (zero : σ) (values : List Datum) : σ :=
  (columns.zip values).foldl (fun s (c, v) => c.set v s) zero

/-- A type that is stored as a record of these fields. -/
@[reducible]
def storedRecord {σ : Type} (zero : σ) (columns : List (Column σ)) : Stored σ where
  shape := .record (fieldsOf columns)
  toDatum s := .record (columns.map fun c => c.get s)
  ofDatum
    | .record vs => fillColumns columns zero vs
    | _ => zero

/-- A type that may be missing, stored as a record of these fields. -/
@[reducible]
def storedOptional {σ : Type} (zero : σ) (columns : List (Column σ)) : Stored (Option σ) where
  shape := .optional (fieldsOf columns)
  toDatum
    | some s => .record (columns.map fun c => c.get s)
    | none => .nothing
  ofDatum
    | .record vs => some (fillColumns columns zero vs)
    | _ => none

end WasmBackend.Storage
