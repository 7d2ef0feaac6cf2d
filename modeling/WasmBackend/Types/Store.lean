import WasmBackend.Types.Basic

/-!
# The store of concrete types

A `TypeStore` turns generic templates applied to arguments into handles, the same application
always into the same handle, and builds the concrete type of a handle on first use.  Templates are
the primitives, pointers, function types, one per aggregate declaration of the program, and any
registered besides.  Building the type of an aggregate only makes handles for its members, so
aggregates that reach themselves through pointers are no problem.
-/

namespace WasmBackend

/-- How a registered template builds its type. -/
inductive Recipe where
  /-- A type with the template's name and kind. -/
  | plain
  /-- No type at all. -/
  | missing
  /-- Ask for the type under construction. -/
  | circular
  /-- A type named after the pointer to itself. -/
  | pointerNamed
deriving DecidableEq, Repr, Inhabited

/-- What a handle applies to its arguments. -/
inductive Template where
  | prim (p : Prim)
  | pointer
  /-- Any number of parameters, then the result. -/
  | function
  | aggregate (decl : DeclId)
  /-- A template from outside the program; an arity of `none` accepts any arguments. -/
  | custom (identity : Text) (arity : Option Int) (kind : TypeKind) (recipe : Recipe)
deriving DecidableEq, Inhabited

/-- The identity of an aggregate declaration's template. -/
def declIdentity (id : DeclId) : Text :=
  "decl#" ++ Text.ofNat id.toNat

/-- The identity of a primitive's template. -/
def primIdentity (p : Prim) : Text :=
  "prim:" ++ p.name

namespace Template

def identity : Template → Text
  | prim p => primIdentity p
  | pointer => "ptr"
  | function => "fn"
  | aggregate d => declIdentity d
  | custom id _ _ _ => id

/-- The number of arguments wanted; `none` accepts any. -/
def arity (p : Program) : Template → Option Int
  | prim _ => some 0
  | pointer => some 1
  | function => none
  | aggregate d => some (((p.decl? d).map fun x => x.generics.length).getD 0 : Nat)
  | custom _ a _ _ => a

/-- The kind of the types built, known without building one. -/
def kind (p : Program) : Template → TypeKind
  | prim _ => .primitive
  | pointer => .pointer
  | function => .function
  | aggregate d => if (p.decl? d).map Decl.kind = some .cls then .cls else .struct
  | custom _ _ k _ => k

end Template

/-- A template applied to arguments, with the type once it is built. -/
structure Application where
  template : Template
  args : List Handle
  type : Option ConcreteType := none
  /-- Whether the type is being built further up. -/
  building : Bool := false
deriving DecidableEq, Inhabited

/-- The text of an application: the template's identity and the argument handles. -/
def Application.key (a : Application) : Text :=
  a.template.identity ++ "(" ++ Text.join "," (a.args.map Text.ofNat) ++ ")"

/-- Templates, and the applications with handles 1, 2, … . -/
structure TypeStore where
  program : Program
  templates : List Template
  applications : Array Application
deriving DecidableEq, Inhabited

namespace TypeStore

/-- The builtin templates. -/
def builtins : List Template :=
  Prim.known.tail.map Template.prim ++ [.pointer, .function]

/-- The store of a program: builtin templates and one template per aggregate. -/
def ofProgram (p : Program) : TypeStore :=
  let aggregates := p.numberedDecls.filterMap fun (id, d) =>
    if d.isAggregate then some (Template.aggregate id) else none
  ⟨p, builtins ++ aggregates, #[]⟩

def template? (s : TypeStore) (identity : Text) : Option Template :=
  s.templates.find? fun t => t.identity = identity

/-- The application of a handle; the empty type has none. -/
def application? (s : TypeStore) (h : Handle) : Option Application :=
  if h = 0 then none else s.applications[h - 1]?

/-- The number of handles, the empty type included. -/
def size (s : TypeStore) : Nat :=
  s.applications.size + 1

/-- The arguments a handle was made with. -/
def argsOf (s : TypeStore) (h : Handle) : List Handle :=
  ((s.application? h).map Application.args).getD []

/-- Whether the type of a handle is built. -/
def isBuilt (s : TypeStore) (h : Handle) : Bool :=
  h = 0 || ((s.application? h).bind Application.type).isSome

/-- The handle of an application that exists already. -/
def handle? (s : TypeStore) (identity : Text) (args : List Handle) : Option Handle :=
  (s.applications.findIdx? fun a => a.template.identity = identity ∧ a.args = args).map (· + 1)

/-- Change the application of a handle; the empty type has none. -/
def update (s : TypeStore) (h : Handle) (f : Application → Application) : TypeStore :=
  if h = 0 then s else { s with applications := s.applications.modify (h - 1) f }

/-- Replace the type of a handle, as layout does. -/
def setType (s : TypeStore) (t : ConcreteType) : TypeStore :=
  s.update t.handle fun a => { a with type := some t }

/-- The kind of a handle's type, without building it. -/
def kindOf (s : TypeStore) (h : Handle) : Except Failure TypeKind :=
  if h = 0 then .ok .void
  else
    match s.application? h with
    | some a => .ok (a.template.kind s.program)
    | none => .error (.internal ("kindof: handle " ++ Text.ofNat h ++ " was never specialized"))

/-- A stateful computation over the store. -/
abbrev M := Stage TypeStore

/-- Add a template; an identity can be taken only once. -/
def register (t : Template) : M Unit := do
  let s ← get
  if (s.template? t.identity).isSome then
    Stage.internal ("template " ++ t.identity ++ " registered twice")
  set { s with templates := s.templates ++ [t] }

/-- The handle of a template applied to arguments, made on first use. -/
def specialize (identity : Text) (args : List Handle) : M Handle := do
  let s ← get
  match s.template? identity with
  | none => Stage.internal ("specialize: unregistered generic " ++ identity)
  | some t =>
    match t.arity s.program with
    | some arity =>
      if arity ≠ args.length then
        Stage.internal ("specialize: " ++ identity ++ " wants " ++ Text.ofInt arity
          ++ " arguments, got " ++ Text.ofNat args.length)
    | none => pure ()
    match s.handle? identity args with
    | some h => return h
    | none =>
      set { s with applications := s.applications.push { template := t, args := args } }
      return s.size

/-- The handle of a primitive; the empty type for none. -/
def prim (p : Prim) : M Handle :=
  if p = .none then pure Handle.void else specialize (primIdentity p) []

/-- The handle of a pointer type. -/
def pointerTo (elem : Handle) : M Handle :=
  specialize "ptr" [elem]

/-- The handle of a function type. -/
def functionType (params : List Handle) (result : Handle) : M Handle :=
  specialize "fn" (params ++ [result])

/-- The handle of an aggregate applied to arguments. -/
def instantiate (decl : DeclId) (args : List Handle) : M Handle := do
  let s ← get
  if s.templates.any fun t => t = Template.aggregate decl then
    specialize (declIdentity decl) args
  else
    Stage.internal ("instance: declaration " ++ Text.ofNat decl.toNat ++ " is not an aggregate")

/-- The handle of a type expression at most `depth` deep, with generic parameters taken from
`scope`. -/
def resolveWithin : Nat → TypeId → List Handle → M Handle
  | 0, _, _ => throw .exhausted
  | depth + 1, id, scope => do
    if id = 0 then return Handle.void
    match (← get).program.typeExpr? id with
    | none => Stage.internal ("resolve: type expression " ++ Text.ofNat id.toNat ++ " is missing")
    | some t =>
      match t.kind with
      | .void => return Handle.void
      | .prim => prim t.prim
      | .named => do
        let args ← t.args.mapM fun a => resolveWithin depth a scope
        instantiate t.decl args
      | .param =>
        match scope[t.index.toNat]? with
        | some h => return h
        | none =>
          Stage.internal ("resolve: generic parameter " ++ Text.ofNat t.index.toNat
            ++ " outside a scope of " ++ Text.ofNat scope.length)
      | .pointer => do
        let elem ← resolveWithin depth t.elem scope
        pointerTo elem
      | .function => do
        let params ← t.args.mapM fun a => resolveWithin depth a scope
        let result ← resolveWithin depth t.elem scope
        functionType params result
      | .unknown _ _ => Stage.internal ("resolve: unknown type kind " ++ t.kind.name)

/-- The handle of a type expression; no type expression is the empty type. -/
def resolve (id : TypeId) (scope : List Handle) : M Handle := do
  resolveWithin ((← get).program.types.size + 2) id scope

def resolveAll (ids : List TypeId) (scope : List Handle) : M (List Handle) :=
  ids.mapM fun t => resolve t scope

/-- The name of a handle's type; of a type under construction, the text of its application. -/
def shortName (build : Handle → M ConcreteType) (h : Handle) : M Text := do
  if h = 0 then return "void"
  match (← get).application? h with
  | none => throw .fault
  | some a => if a.building then return a.key else return (← build h).name

/-- `name<arg,…>` from the names of the arguments' types. -/
def mangleWith (build : Handle → M ConcreteType) (name : Text) (args : List Handle) : M Text := do
  if args.isEmpty then return name
  let names ← args.mapM fun a => return (← build a).name
  return name ++ "<" ++ Text.join "," names ++ ">"

/-- The members of an aggregate with the handles of their types. -/
def membersOf (fields : List Field) (args : List Handle) : M (List Member × List Handle) := do
  let pairs ← fields.mapM fun f => do
    let h ← resolve f.type args
    let kind ← Stage.ofExcept ((← get).kindOf h)
    return (({ name := f.name, type := h } : Member), kind)
  let deps := pairs.filterMap fun (m, kind) => if kind = .struct then some m.type else none
  return (pairs.map Prod.fst, deps)

/-- The methods of an aggregate by name; of two with one name the later counts. -/
def methodTable (p : Program) (ids : List DeclId) : Except Failure (List (Text × DeclId)) :=
  ids.foldlM
    (fun table id => do
      let d ← orFault (p.decl? id)
      return assocInsert d.name id table)
    []

/-- The operators of an aggregate; of two for one operator the later counts. -/
def operatorTable (p : Program) (ids : List DeclId) : Except Failure (List (Operator × DeclId)) :=
  ids.foldlM
    (fun table id => do
      let d ← orFault (p.decl? id)
      let f ← orFault d.function
      return assocInsert f.op id table)
    []

/-- Build the type of an application; `build` gives the types it depends on. -/
def materialize (build : Handle → M ConcreteType) (h : Handle) (a : Application) :
    M (Option ConcreteType) := do
  let p := (← get).program
  match a.template with
  | .prim q => return some { name := q.name, kind := .primitive, prim := q, resolved := true }
  | .pointer =>
    let elem ← Stage.some! a.args.head?
    let name ← shortName build elem
    return some { name := "*" ++ name, kind := .pointer, elem := elem, resolved := true }
  | .function =>
    match a.args.getLast? with
    | none => return none
    | some result =>
      let params := a.args.dropLast
      let names ← params.mapM (shortName build)
      let resultName ← shortName build result
      return some
        { name := "fn(" ++ Text.join "," names ++ ")" ++ resultName
          kind := .function
          params := params
          result := result
          resolved := true }
  | .aggregate id =>
    let d ← Stage.some! (p.decl? id)
    let agg ← Stage.some! d.aggregate
    let name ← mangleWith build d.name a.args
    let (members, deps) ← membersOf agg.fields a.args
    let methods ← Stage.ofExcept (methodTable p agg.methods)
    let operators ← Stage.ofExcept (operatorTable p agg.operators)
    return some
      { name := name
        kind := a.template.kind p
        span := d.span
        decl := id
        members := members
        methods := methods
        operators := operators
        init := agg.init
        deps := deps }
  | .custom identity _ kind recipe =>
    match recipe with
    | .plain => return some { name := identity, kind := kind }
    | .missing => return none
    | .circular => return some (← build h)
    | .pointerNamed =>
      let pointer ← pointerTo h
      let name := (← build pointer).name
      return some { name := identity ++ ":" ++ name, kind := kind }

/-- The type of a handle, built on first use, with at most `depth` types under construction. -/
def getWithin : Nat → Handle → M ConcreteType
  | 0, _ => throw .exhausted
  | depth + 1, h => do
    if h = 0 then return .void
    match (← get).application? h with
    | none => Stage.internal ("get: handle " ++ Text.ofNat h ++ " was never specialized")
    | some a =>
      match a.type with
      | some t => return t
      | none =>
        if a.building then
          Stage.internal ("get: " ++ a.key ++ " materialized recursively")
        modify fun s => s.update h fun a => { a with building := true }
        let built ← materialize (getWithin depth) h a
        modify fun s => s.update h fun a => { a with building := false }
        match built with
        | none =>
          Stage.internal ("get: template " ++ a.template.identity ++ " produced no type")
        | some t =>
          let t := { t with handle := h, args := a.args }
          modify fun s => s.setType t
          return t

/-- The type of a handle. -/
def getType (h : Handle) : M ConcreteType := do
  getWithin (2 * (← get).size + 2) h

/-- The name of a handle's type. -/
def nameOf (h : Handle) : M Text :=
  return (← getType h).name

/-- The symbol of a name applied to generic arguments. -/
def mangle (name : Text) (args : List Handle) : M Text :=
  mangleWith getType name args

/-- The symbol of a plain function applied to arguments. -/
def functionName (decl : DeclId) (args : List Handle) : M Text := do
  let d ← Stage.some! ((← get).program.decl? decl)
  mangle d.name args

/-- The symbol of a method, operator or constructor of a type. -/
def memberName (owner : Handle) (decl : DeclId) : M Text := do
  let d ← Stage.some! ((← get).program.decl? decl)
  let base := (← nameOf owner) ++ "."
  let f ← Stage.some! d.function
  match f.kind with
  | .operator => return base ++ "operator" ++ f.op.name
  | .constructor => return base ++ "init"
  | _ => return base ++ d.name

end TypeStore

end WasmBackend
