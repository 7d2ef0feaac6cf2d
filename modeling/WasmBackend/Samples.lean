import WasmBackend.Program.Build

/-!
# Sample programs

Small complete programs, one for each part of the language, found by name.  All but `cycle` compile.
-/

namespace WasmBackend.Samples

open Build

/-- Export a function under its own name. -/
def exported (fn : DeclId) (name : Text) : Build Unit :=
  decorate fn [⟨.exported, name⟩]

/-- `add(a, b)` of two numbers. -/
def add : Program := program do
  let i32 ← primType .i32
  let fn ← function "add" i32
  let x ← param fn "a" i32
  let y ← param fn "b" i32
  body fn [← ret (← binary i32 .add (← ref fn x) (← ref fn y))]
  exported fn "add"

/-- `sum(n)` adds 0 to n - 1 in a loop. -/
def sum : Program := program do
  let i32 ← primType .i32
  let boolean ← primType .bool
  let fn ← function "sum" i32
  let n ← param fn "n" i32
  let s ← binding fn "s" i32 true
  let i ← binding fn "i" i32 true
  body fn [
    ← bind s (← int i32 0),
    ← bind i (← int i32 0),
    ← loop (← binary boolean .lt (← ref fn i) (← ref fn n)) [
      ← assign (← ref fn s) (← binary i32 .add (← ref fn s) (← ref fn i)),
      ← assign (← ref fn i) (← binary i32 .add (← ref fn i) (← int i32 1))],
    ← ret (← ref fn s)]
  exported fn "sum"

/-- A struct inside a struct, read back by `bx(v)`. -/
def nested : Program := program do
  let i32 ← primType .i32
  let inner ← struct "A"
  field inner "x" i32
  let outer ← struct "B"
  let innerType ← namedType inner
  field outer "a" innerType
  let outerType ← namedType outer
  let fn ← function "bx" i32
  let v ← param fn "v" i32
  let b ← binding fn "b" outerType false
  body fn [
    ← bind b (← construct outerType [← construct innerType [← ref fn v]]),
    ← ret (← member i32 (← member innerType (← ref fn b) "a") "x")]
  exported fn "bx"

/-- A class with a constructor and a method that `count(k)` calls k times. -/
def counter : Program := program do
  let i32 ← primType .i32
  let boolean ← primType .bool
  let c ← cls "Counter"
  field c "n" i32
  let type ← namedType c
  let own : Build ExprId := do member i32 (← self type) "n"
  let init ← constructor c
  body init [← assign (← own) (← int i32 0)]
  let inc ← method c "inc" i32
  let by_ ← param inc "by" i32
  body inc [
    ← assign (← own) (← binary i32 .add (← own) (← ref inc by_)),
    ← ret (← own)]
  let fn ← function "count" i32
  let k ← param fn "k" i32
  let obj ← binding fn "c" type false
  let i ← binding fn "i" i32 true
  body fn [
    ← bind obj (← construct type []),
    ← bind i (← int i32 0),
    ← loop (← binary boolean .lt (← ref fn i) (← ref fn k)) [
      ← exprStmt (← methodCall i32 (← ref fn obj) "inc" [← int i32 2]),
      ← assign (← ref fn i) (← binary i32 .add (← ref fn i) (← int i32 1))],
    ← ret (← member i32 (← ref fn obj) "n")]
  exported fn "count"

/-- A generic function and a generic struct that a function returns in two slots. -/
def generic : Program := program do
  let i64 ← primType .i64
  let f64 ← primType .f64
  let ident ← function "id" (← paramType 0) ["T"]
  let ix ← param ident "x" (← paramType 0)
  body ident [← ret (← ref ident ix)]
  let twice ← function "twice" i64
  let tx ← param twice "x" i64
  let one : Build ExprId := do call i64 ident [← ref twice tx] [i64]
  body twice [← ret (← binary i64 .add (← one) (← one))]
  exported twice "twice"
  let pair ← struct "Pair" ["T"]
  field pair "a" (← paramType 0)
  field pair "b" (← paramType 0)
  let pairType ← namedType pair [f64]
  let mk ← function "mk" pairType
  let mx ← param mk "x" f64
  body mk [← ret (← construct pairType [
    ← ref mk mx, ← binary f64 .mul (← ref mk mx) (← float f64 (.ofInt 2))])]
  let total ← function "pairsum" f64
  let px ← param total "x" f64
  let p ← binding total "p" pairType false
  body total [
    ← bind p (← call pairType mk [← ref total px]),
    ← ret (← binary f64 .add (← member f64 (← ref total p) "a") (← member f64 (← ref total p) "b"))]
  exported total "pairsum"

/-- Functions as values: `applied(x, big)` calls one of two through a variable. -/
def funcref : Program := program do
  let i32 ← primType .i32
  let boolean ← primType .bool
  let type ← functionType i32 [i32]
  let times (name : Text) (factor : Int64) : Build DeclId := do
    let fn ← function name i32
    let x ← param fn "x" i32
    body fn [← ret (← binary i32 .mul (← ref fn x) (← int i32 factor))]
    return fn
  let double ← times "double" 2
  let triple ← times "triple" 3
  let apply ← function "apply" i32
  let af ← param apply "f" type
  let ax ← param apply "x" i32
  body apply [← ret (← callValue i32 (← ref apply af) [← ref apply ax])]
  let fn ← function "applied" i32
  let x ← param fn "x" i32
  let big ← param fn "big" boolean
  let f ← binding fn "f" type true
  body fn [
    ← bind f (← funcRef type double),
    ← cond (← ref fn big) [← assign (← ref fn f) (← funcRef type triple)] [],
    ← ret (← call i32 apply [← ref fn f, ← ref fn x])]
  exported fn "applied"

/-- A foreign function that takes one parameter and gives nothing. -/
def foreignSink (name : Text) (parameter : Text) (t result : TypeId) : Build DeclId := do
  let fn ← function name result
  discard (param fn parameter t)
  bodiless fn
  decorate fn [⟨.foreign, name⟩]
  return fn

/-- Main statements that pass a string and a number to the host. -/
def hello : Program := program do
  let i32 ← primType .i32
  let u32 ← primType .u32
  let void ← voidType
  let str ← struct "Str"
  field str "data" (← pointerType (← primType .u8))
  field str "len" u32
  let type ← namedType str
  let puts ← foreignSink "puts" "s" type void
  let log ← foreignSink "log" "v" i32 void
  mainBody [
    ← exprStmt (← call void puts [← string type "hello"]),
    ← exprStmt (← call void log [← binary i32 .add (← int i32 40) (← int i32 2)])]

/-- A global that `bump()` counts up. -/
def globals : Program := program do
  let i32 ← primType .i32
  let g ← global "counter" i32 (← int i32 10) true
  let fn ← function "bump" i32
  body fn [
    ← assign (← globalRef g) (← binary i32 .add (← globalRef g) (← int i32 1)),
    ← ret (← globalRef g)]
  exported fn "bump"

/-- A logical operator in `between(x, lo, hi)` and early returns in `clamp(x)`. -/
def logic : Program := program do
  let i32 ← primType .i32
  let boolean ← primType .bool
  let fn ← function "between" boolean
  let x ← param fn "x" i32
  let lo ← param fn "lo" i32
  let hi ← param fn "hi" i32
  body fn [← ret (← binary boolean .logAnd
    (← binary boolean .le (← ref fn lo) (← ref fn x))
    (← binary boolean .lt (← ref fn x) (← ref fn hi)))]
  exported fn "between"
  let clamp ← function "clamp" i32
  let cx ← param clamp "x" i32
  body clamp [
    ← cond (← binary boolean .lt (← ref clamp cx) (← int i32 0)) [← ret (← int i32 0)] [],
    ← cond (← binary boolean .gt (← ref clamp cx) (← int i32 100))
      [← ret (← int i32 100)] [← ret (← ref clamp cx)]]
  exported clamp "clamp"

/-- Nested loops with jumps out of them and back to their heads. -/
def loops : Program := program do
  let i32 ← primType .i32
  let boolean ← primType .bool
  let fn ← function "skips" i32
  let n ← param fn "n" i32
  let count ← binding fn "count" i32 true
  let i ← binding fn "i" i32 true
  let j ← binding fn "j" i32 true
  let get (l : LocalId) : Build ExprId := ref fn l
  let inc (l : LocalId) : Build StmtId := do
    assign (← get l) (← binary i32 .add (← get l) (← int i32 1))
  body fn [
    ← bind count (← int i32 0),
    ← bind i (← int i32 0),
    ← bind j (← int i32 0),
    ← loop (← binary boolean .lt (← get i) (← get n)) [
      ← inc i,
      ← cond (← binary boolean .eq (← get i) (← int i32 3)) [← next] [],
      ← assign (← get j) (← int i32 0),
      ← loop (← bool boolean true) [
        ← inc j,
        ← cond (← binary boolean .gt (← get j) (← get i)) [← exit] [],
        ← cond (← binary boolean .eq (← get j) (← int i32 2)) [← next] [],
        ← inc count]],
    ← ret (← get count)]
  exported fn "skips"

/-- A struct with an addition of its own. -/
def operators : Program := program do
  let i32 ← primType .i32
  let v ← struct "V"
  field v "x" i32
  field v "y" i32
  let type ← namedType v
  let plus ← operatorFunction v .add type
  let o ← param plus "o" type
  let both (name : Text) : Build ExprId := do
    binary i32 .add (← member i32 (← self type) name) (← member i32 (← ref plus o) name)
  body plus [← ret (← construct type [← both "x", ← both "y"])]
  let fn ← function "vadd" i32
  let x ← param fn "a" i32
  let y ← param fn "b" i32
  let r ← binding fn "r" type false
  body fn [
    ← bind r (← operatorCall type .add
      (← construct type [← ref fn x, ← ref fn y])
      (← construct type [← int i32 10, ← int i32 20])),
    ← ret (← binary i32 .add
      (← binary i32 .mul (← member i32 (← ref fn r) "x") (← int i32 100))
      (← member i32 (← ref fn r) "y"))]
  exported fn "vadd"

/-- Every unary operator in a function of its own. -/
def unaries : Program := program do
  let i32 ← primType .i32
  let f64 ← primType .f64
  let boolean ← primType .bool
  let one (name : Text) (t : TypeId) (op : Operator) : Build Unit := do
    let fn ← function name t
    let x ← param fn "x" t
    body fn [← ret (← unary t op (← ref fn x))]
    exported fn name
  one "neg" i32 .neg
  one "fneg" f64 .neg
  one "bitnot" i32 .bitNot
  one "not" boolean .not

/-- Cells on the heap, read and written through pointers. -/
def pointers : Program := program do
  let i32 ← primType .i32
  let pointer ← pointerType i32
  let fn ← function "triple1" i32
  let v ← param fn "v" i32
  let p ← binding fn "p" pointer false
  let q ← binding fn "q" pointer false
  let cell (l : LocalId) : Build ExprId := do deref i32 (← ref fn l)
  body fn [
    ← bind p (← alloc pointer (← ref fn v)),
    ← assign (← cell p) (← binary i32 .mul (← cell p) (← int i32 3)),
    ← bind q (← alloc pointer 0),
    ← assign (← cell q) (← binary i32 .add (← cell p) (← int i32 1)),
    ← ret (← cell q)]
  exported fn "triple1"

/-- A pointer that may stay null. -/
def nulls : Program := program do
  let i32 ← primType .i32
  let boolean ← primType .bool
  let pointer ← pointerType i32
  let fn ← function "isnull" boolean
  let box ← param fn "box" boolean
  let p ← binding fn "p" pointer true
  body fn [
    ← bind p (← null pointer),
    ← cond (← ref fn box) [← assign (← ref fn p) (← alloc pointer (← int i32 1))] [],
    ← ret (← binary boolean .eq (← ref fn p) (← null pointer))]
  exported fn "isnull"

/-- Functions that nothing refers to and that are compiled in any case. -/
def kept : Program := program do
  let i32 ← primType .i32
  let constant (name : Text) (n : Int64) : Build DeclId := do
    let fn ← function name i32
    body fn [← ret (← int i32 n)]
    return fn
  let first ← constant "kept" 1
  decorate first [⟨.compiled, ""⟩]
  let second ← constant "rooted" 2
  root second
  let fn ← constant "answer" 42
  exported fn "answer"

/-- A foreign function called through a variable. -/
def hostref : Program := program do
  let i32 ← primType .i32
  let void ← voidType
  let type ← functionType void [i32]
  let log ← foreignSink "log" "v" i32 void
  let fn ← function "relay" i32
  let x ← param fn "x" i32
  let f ← binding fn "f" type false
  body fn [
    ← bind f (← funcRef type log),
    ← exprStmt (← callValue void (← ref fn f) [← ref fn x]),
    ← exprStmt (← callValue void (← ref fn f) [← binary i32 .add (← ref fn x) (← int i32 1)]),
    ← ret (← ref fn x)]
  exported fn "relay"

/-- Intrinsics behind functions of their own. -/
def natives : Program := program do
  let i32 ← primType .i32
  let f64 ← primType .f64
  let intrinsic (name : Text) (t : TypeId) : Build DeclId := do
    let fn ← function name t
    discard (param fn "x" t)
    bodiless fn
    decorate fn [⟨.native, ""⟩]
    return fn
  let wrap (name : Text) (t : TypeId) (native : DeclId) : Build Unit := do
    let fn ← function name t
    let x ← param fn "x" t
    body fn [← ret (← call t native [← ref fn x])]
    exported fn name
  let sqrt ← intrinsic "sqrt" f64
  let abs ← intrinsic "abs" i32
  wrap "root" f64 sqrt
  wrap "magnitude" i32 abs

/-- Two structs that contain each other and cannot be laid out. -/
def cycle : Program := program do
  let i32 ← primType .i32
  let a ← struct "A"
  let b ← struct "B"
  field a "b" (← namedType b)
  field b "a" (← namedType a)
  let fn ← function "use" i32
  discard (param fn "a" (← namedType a))
  body fn [← ret (← int i32 0)]
  exported fn "use"

/-- The samples by name. -/
def all : List (Text × Program) :=
  [("add", add), ("sum", sum), ("nested", nested), ("counter", counter), ("generic", generic),
    ("funcref", funcref), ("hello", hello), ("globals", globals), ("logic", logic),
    ("loops", loops), ("operators", operators), ("unary", unaries), ("pointers", pointers),
    ("nulls", nulls), ("kept", kept), ("hostref", hostref), ("natives", natives),
    ("cycle", cycle)]

end WasmBackend.Samples
