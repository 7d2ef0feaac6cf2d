/-!
# Node kinds

Programs arrive with every kind as a byte.  Each kind is an enumeration with one more constructor
for the bytes that name nothing, so that it corresponds exactly to a byte: a program that holds an
unknown kind can still be stored, walked and reported on.
-/

namespace WasmBackend

/-- A builtin or user-overloadable operator. -/
inductive Operator where
  | none
  | add
  | sub
  | mul
  | div
  | rem
  | and
  | or
  | xor
  | shl
  | shr
  | eq
  | ne
  | lt
  | le
  | gt
  | ge
  /-- Evaluates its right side only when the left one is true. -/
  | logAnd
  /-- Evaluates its right side only when the left one is false. -/
  | logOr
  | neg
  | not
  | bitNot
  | unknown (code : UInt8) (outside : 22 ≤ code)
deriving DecidableEq, Repr, Inhabited

namespace Operator

/-- The known kinds in code order. -/
def known : List Operator :=
  [none, add, sub, mul, div, rem, and, or, xor, shl, shr, eq, ne, lt, le, gt, ge, logAnd,
    logOr, neg, not, bitNot]

def ofCode (c : UInt8) : Operator :=
  if h : 22 ≤ c then unknown c h else known.getD c.toNat none

def code : Operator → UInt8
  | none => 0
  | add => 1
  | sub => 2
  | mul => 3
  | div => 4
  | rem => 5
  | and => 6
  | or => 7
  | xor => 8
  | shl => 9
  | shr => 10
  | eq => 11
  | ne => 12
  | lt => 13
  | le => 14
  | gt => 15
  | ge => 16
  | logAnd => 17
  | logOr => 18
  | neg => 19
  | not => 20
  | bitNot => 21
  | unknown c _ => c

/-- How the operator is written. -/
def name : Operator → String
  | none => "?"
  | add => "+"
  | sub => "-"
  | mul => "*"
  | div => "/"
  | rem => "%"
  | and => "&"
  | or => "|"
  | xor => "^"
  | shl => "<<"
  | shr => ">>"
  | eq => "=="
  | ne => "!="
  | lt => "<"
  | le => "<="
  | gt => ">"
  | ge => ">="
  | logAnd => "&&"
  | logOr => "||"
  | neg => "neg"
  | not => "!"
  | bitNot => "~"
  | unknown _ _ => "?"

@[simp]
theorem code_ofCode (c : UInt8) : (ofCode c).code = c := by
  unfold ofCode
  split
  · rfl
  · rename_i h
    have hc : c.toNat < 22 := by simpa [UInt8.le_iff_toNat_le] using h
    have key : ∀ n : Fin 22, (known.getD n.val none).code = n.val.toUInt8 := by decide
    simpa using key ⟨c.toNat, hc⟩

@[simp]
theorem ofCode_code (k : Operator) : ofCode k.code = k := by
  cases k with
  | unknown c h => simp [code, ofCode, h]
  | _ => rfl

/-- Whether the operator compares two operands. -/
def isComparison : Operator → Bool
  | eq | ne | lt | le | gt | ge => true
  | _ => false

def isUnary : Operator → Bool
  | neg | not | bitNot => true
  | _ => false

end Operator

/-- What a declaration declares. -/
inductive DeclKind where
  | function
  /-- A value aggregate: copied by value and laid out inline. -/
  | struct
  /-- A heap aggregate: its values are references to an instance. -/
  | cls
  | global
  | unknown (code : UInt8) (outside : 4 ≤ code)
deriving DecidableEq, Repr, Inhabited

namespace DeclKind

/-- The known kinds in code order. -/
def known : List DeclKind :=
  [function, struct, cls, global]

def ofCode (c : UInt8) : DeclKind :=
  if h : 4 ≤ c then unknown c h else known.getD c.toNat function

def code : DeclKind → UInt8
  | function => 0
  | struct => 1
  | cls => 2
  | global => 3
  | unknown c _ => c

/-- The name in listings. -/
def name : DeclKind → String
  | function => "func"
  | struct => "struct"
  | cls => "class"
  | global => "global"
  | unknown _ _ => "unknown"

@[simp]
theorem code_ofCode (c : UInt8) : (ofCode c).code = c := by
  unfold ofCode
  split
  · rfl
  · rename_i h
    have hc : c.toNat < 4 := by simpa [UInt8.le_iff_toNat_le] using h
    have key : ∀ n : Fin 4, (known.getD n.val function).code = n.val.toUInt8 := by decide
    simpa using key ⟨c.toNat, hc⟩

@[simp]
theorem ofCode_code (k : DeclKind) : ofCode k.code = k := by
  cases k with
  | unknown c h => simp [code, ofCode, h]
  | _ => rfl

end DeclKind

/-- What a decorator asks for. -/
inductive DecoratorKind where
  | exported
  | foreign
  | inlined
  | native
  /-- Compile the function although nobody calls it. -/
  | compiled
  | unknown (code : UInt8) (outside : code = 0 ∨ 6 ≤ code)
deriving DecidableEq, Repr, Inhabited

namespace DecoratorKind

/-- The known kinds in code order. -/
def known : List DecoratorKind :=
  [exported, foreign, inlined, native, compiled]

def ofCode (c : UInt8) : DecoratorKind :=
  if h : c = 0 ∨ 6 ≤ c then unknown c h else known.getD (c.toNat - 1) exported

def code : DecoratorKind → UInt8
  | exported => 1
  | foreign => 2
  | inlined => 3
  | native => 4
  | compiled => 5
  | unknown c _ => c

@[simp]
theorem code_ofCode (c : UInt8) : (ofCode c).code = c := by
  unfold ofCode
  split
  · rfl
  · rename_i h
    rw [not_or] at h
    have h0 : c.toNat ≠ 0 := fun e => h.1 (UInt8.toNat_inj.1 e)
    have hc : c.toNat < 6 := by simpa [UInt8.le_iff_toNat_le] using h.2
    have key : ∀ n : Fin 5, (known.getD n.val exported).code = (n.val + 1).toUInt8 := by decide
    have := key ⟨c.toNat - 1, by omega⟩
    rw [this]
    apply UInt8.toNat_inj.1
    simp only [Nat.toUInt8, UInt8.toNat_ofNat']
    omega

@[simp]
theorem ofCode_code (k : DecoratorKind) : ofCode k.code = k := by
  cases k with
  | unknown c h => simp [code, ofCode, h]
  | _ => rfl

end DecoratorKind

/-- How a function belongs to an aggregate. -/
inductive FunctionKind where
  | plain
  | method
  | operator
  | constructor
  | unknown (code : UInt8) (outside : 4 ≤ code)
deriving DecidableEq, Repr, Inhabited

namespace FunctionKind

/-- The known kinds in code order. -/
def known : List FunctionKind :=
  [plain, method, operator, constructor]

def ofCode (c : UInt8) : FunctionKind :=
  if h : 4 ≤ c then unknown c h else known.getD c.toNat plain

def code : FunctionKind → UInt8
  | plain => 0
  | method => 1
  | operator => 2
  | constructor => 3
  | unknown c _ => c

@[simp]
theorem code_ofCode (c : UInt8) : (ofCode c).code = c := by
  unfold ofCode
  split
  · rfl
  · rename_i h
    have hc : c.toNat < 4 := by simpa [UInt8.le_iff_toNat_le] using h
    have key : ∀ n : Fin 4, (known.getD n.val plain).code = n.val.toUInt8 := by decide
    simpa using key ⟨c.toNat, hc⟩

@[simp]
theorem ofCode_code (k : FunctionKind) : ofCode k.code = k := by
  cases k with
  | unknown c h => simp [code, ofCode, h]
  | _ => rfl

end FunctionKind

/-- How a local comes by its value. -/
inductive LocalKind where
  | param
  /-- Bound once. -/
  | fixed
  /-- Bound anew by assignments. -/
  | mutable
  | unknown (code : UInt8) (outside : 3 ≤ code)
deriving DecidableEq, Repr, Inhabited

namespace LocalKind

/-- The known kinds in code order. -/
def known : List LocalKind :=
  [param, fixed, mutable]

def ofCode (c : UInt8) : LocalKind :=
  if h : 3 ≤ c then unknown c h else known.getD c.toNat param

def code : LocalKind → UInt8
  | param => 0
  | fixed => 1
  | mutable => 2
  | unknown c _ => c

@[simp]
theorem code_ofCode (c : UInt8) : (ofCode c).code = c := by
  unfold ofCode
  split
  · rfl
  · rename_i h
    have hc : c.toNat < 3 := by simpa [UInt8.le_iff_toNat_le] using h
    have key : ∀ n : Fin 3, (known.getD n.val param).code = n.val.toUInt8 := by decide
    simpa using key ⟨c.toNat, hc⟩

@[simp]
theorem ofCode_code (k : LocalKind) : ofCode k.code = k := by
  cases k with
  | unknown c h => simp [code, ofCode, h]
  | _ => rfl

end LocalKind

/-- The forms of checked expressions. -/
inductive ExprKind where
  | int
  | float
  | bool
  | string
  /-- The zero pointer or class reference. -/
  | null
  /-- A local variable. -/
  | loc
  | global
  | self
  /-- A function as a value. -/
  | funcRef
  /-- A direct call of a declaration. -/
  | call
  /-- A call of a function value. -/
  | callValue
  | methodCall
  | member
  /-- A builtin operator on primitives. -/
  | binary
  /-- An operator declared by the type of the left operand. -/
  | operator
  | unary
  | convert
  /-- A value of an aggregate from its parts. -/
  | construct
  /-- A new cell of the pointed-to type. -/
  | alloc
  | deref
  | unknown (code : UInt8) (outside : 20 ≤ code)
deriving DecidableEq, Repr, Inhabited

namespace ExprKind

/-- The known kinds in code order. -/
def known : List ExprKind :=
  [int, float, bool, string, null, loc, global, self, funcRef, call, callValue, methodCall,
    member, binary, operator, unary, convert, construct, alloc, deref]

def ofCode (c : UInt8) : ExprKind :=
  if h : 20 ≤ c then unknown c h else known.getD c.toNat int

def code : ExprKind → UInt8
  | int => 0
  | float => 1
  | bool => 2
  | string => 3
  | null => 4
  | loc => 5
  | global => 6
  | self => 7
  | funcRef => 8
  | call => 9
  | callValue => 10
  | methodCall => 11
  | member => 12
  | binary => 13
  | operator => 14
  | unary => 15
  | convert => 16
  | construct => 17
  | alloc => 18
  | deref => 19
  | unknown c _ => c

/-- The name in messages. -/
def name : ExprKind → String
  | int => "int"
  | float => "float"
  | bool => "bool"
  | string => "string"
  | null => "null"
  | loc => "local"
  | global => "global"
  | self => "self"
  | funcRef => "funcref"
  | call => "call"
  | callValue => "callvalue"
  | methodCall => "methodcall"
  | member => "member"
  | binary => "binary"
  | operator => "operator"
  | unary => "unary"
  | convert => "convert"
  | construct => "construct"
  | alloc => "alloc"
  | deref => "deref"
  | unknown _ _ => "unknown"

@[simp]
theorem code_ofCode (c : UInt8) : (ofCode c).code = c := by
  unfold ofCode
  split
  · rfl
  · rename_i h
    have hc : c.toNat < 20 := by simpa [UInt8.le_iff_toNat_le] using h
    have key : ∀ n : Fin 20, (known.getD n.val int).code = n.val.toUInt8 := by decide
    simpa using key ⟨c.toNat, hc⟩

@[simp]
theorem ofCode_code (k : ExprKind) : ofCode k.code = k := by
  cases k with
  | unknown c h => simp [code, ofCode, h]
  | _ => rfl

end ExprKind

/-- The forms of statements. -/
inductive StmtKind where
  | expr
  /-- Gives a local its first value. -/
  | bind
  | assign
  /-- Runs one of two lists of statements. -/
  | cond
  | loop
  /-- Leaves the innermost loop. -/
  | exit
  /-- Goes back to the head of the innermost loop. -/
  | next
  | ret
  | unknown (code : UInt8) (outside : 8 ≤ code)
deriving DecidableEq, Repr, Inhabited

namespace StmtKind

/-- The known kinds in code order. -/
def known : List StmtKind :=
  [expr, bind, assign, cond, loop, exit, next, ret]

def ofCode (c : UInt8) : StmtKind :=
  if h : 8 ≤ c then unknown c h else known.getD c.toNat expr

def code : StmtKind → UInt8
  | expr => 0
  | bind => 1
  | assign => 2
  | cond => 3
  | loop => 4
  | exit => 5
  | next => 6
  | ret => 7
  | unknown c _ => c

/-- The name in messages. -/
def name : StmtKind → String
  | expr => "expr"
  | bind => "let"
  | assign => "assign"
  | cond => "if"
  | loop => "while"
  | exit => "break"
  | next => "continue"
  | ret => "return"
  | unknown _ _ => "unknown"

@[simp]
theorem code_ofCode (c : UInt8) : (ofCode c).code = c := by
  unfold ofCode
  split
  · rfl
  · rename_i h
    have hc : c.toNat < 8 := by simpa [UInt8.le_iff_toNat_le] using h
    have key : ∀ n : Fin 8, (known.getD n.val expr).code = n.val.toUInt8 := by decide
    simpa using key ⟨c.toNat, hc⟩

@[simp]
theorem ofCode_code (k : StmtKind) : ofCode k.code = k := by
  cases k with
  | unknown c h => simp [code, ofCode, h]
  | _ => rfl

end StmtKind

/-- The forms of type expressions. -/
inductive TypeExprKind where
  | void
  | prim
  /-- An aggregate declaration applied to arguments. -/
  | named
  /-- A generic parameter of the enclosing declaration. -/
  | param
  | pointer
  | function
  | unknown (code : UInt8) (outside : 6 ≤ code)
deriving DecidableEq, Repr, Inhabited

namespace TypeExprKind

/-- The known kinds in code order. -/
def known : List TypeExprKind :=
  [void, prim, named, param, pointer, function]

def ofCode (c : UInt8) : TypeExprKind :=
  if h : 6 ≤ c then unknown c h else known.getD c.toNat void

def code : TypeExprKind → UInt8
  | void => 0
  | prim => 1
  | named => 2
  | param => 3
  | pointer => 4
  | function => 5
  | unknown c _ => c

/-- The name in messages. -/
def name : TypeExprKind → String
  | void => "void"
  | prim => "prim"
  | named => "named"
  | param => "param"
  | pointer => "pointer"
  | function => "func"
  | unknown _ _ => "unknown"

@[simp]
theorem code_ofCode (c : UInt8) : (ofCode c).code = c := by
  unfold ofCode
  split
  · rfl
  · rename_i h
    have hc : c.toNat < 6 := by simpa [UInt8.le_iff_toNat_le] using h
    have key : ∀ n : Fin 6, (known.getD n.val void).code = n.val.toUInt8 := by decide
    simpa using key ⟨c.toNat, hc⟩

@[simp]
theorem ofCode_code (k : TypeExprKind) : ofCode k.code = k := by
  cases k with
  | unknown c h => simp [code, ofCode, h]
  | _ => rfl

end TypeExprKind

end WasmBackend
