import WasmBackend.Prim
import WasmBackend.Plan.Task
import WasmBackend.Proofs.Program.Occurrences
import WasmBackend.Proofs.Types.Growth

/-!
# What a program needs compiled

Which tasks a program has is a least fixed point over the handles of a store.  The entry and the
functions compiled in any case come first; a task brings in the functions and member functions that
its expressions refer to, and the layout of every aggregate that the types it mentions lead to.
Everything here is read off the store, so it stays true while the store grows.
-/

namespace WasmBackend

open Relation (ReflTransGen)

/-- What tells a task from others: its kind, its function, the type it belongs to and its generic
arguments. -/
abbrev TaskId := TaskKind × DeclId × Handle × List Handle

namespace TaskId

def kind (x : TaskId) : TaskKind := x.1

def decl (x : TaskId) : DeclId := x.2.1

def owner (x : TaskId) : Handle := x.2.2.1

def args (x : TaskId) : List Handle := x.2.2.2

/-- The task that every program has. -/
def entry : TaskId := (.entry, 0, 0, [])

def function (decl : DeclId) (args : List Handle) : TaskId := (.function, decl, 0, args)

def method (decl : DeclId) (owner : Handle) : TaskId := (.method, decl, owner, [])

def operator (decl : DeclId) (owner : Handle) : TaskId := (.operator, decl, owner, [])

def constructor (decl : DeclId) (owner : Handle) : TaskId := (.constructor, decl, owner, [])

def layout (owner : Handle) : TaskId := (.layout, 0, owner, [])

end TaskId

namespace TypeStore

variable {s s' : TypeStore}

/-- What the declaration of a handle's aggregate says, with the handle's arguments. -/
def declared? (s : TypeStore) (h : Handle) : Option (AggregateData × List Handle) :=
  (s.application? h).map fun a ↦ (a.aggregate s.program, a.args)

/-- The method of an aggregate with a name. -/
def method? (s : TypeStore) (h : Handle) (name : Text) : Option DeclId := do
  let (agg, _) ← s.declared? h
  let table ← (methodTable s.program agg.methods).toOption
  table.lookup name

/-- The operator function of an aggregate. -/
def operator? (s : TypeStore) (h : Handle) (op : Operator) : Option DeclId := do
  let (agg, _) ← s.declared? h
  let table ← (operatorTable s.program agg.operators).toOption
  table.lookup op

/-- The constructor of an aggregate, if it declares one. -/
def constructor? (s : TypeStore) (h : Handle) : Option DeclId := do
  let (agg, _) ← s.declared? h
  if agg.init = 0 then none else some agg.init

/-- Values of the type have members. -/
def IsAggregate (s : TypeStore) (h : Handle) : Prop :=
  ∃ k, s.kindOf h = .ok k ∧ k.isAggregate

/-- The first type is made of the second: it points to it, takes or returns it, or has a member of
it. -/
inductive Leads (s : TypeStore) : Handle → Handle → Prop
  | pointer {h : Handle} {a : Application} (ha : s.application? h = some a)
      (htemplate : a.template = .pointer) : Leads s h a.elem
  | function {h g : Handle} {a : Application} (ha : s.application? h = some a)
      (htemplate : a.template = .function) (hg : g ∈ a.params ++ [a.result]) : Leads s h g
  | member {h g : Handle} {agg : AggregateData} {args : List Handle} {f : Field}
      (hagg : s.declared? h = some (agg, args)) (hf : f ∈ agg.fields)
      (hg : s.denote f.type args = some g) : Leads s h g

/-- What the generic parameters stand for inside a task. -/
def scope? (s : TypeStore) (x : TaskId) : Option (List Handle) :=
  match x.kind with
  | .method | .operator | .constructor => (s.application? x.owner).map Application.args
  | .function | .layout | .entry => some x.args

/-- The function that a task compiles. -/
def function? (s : TypeStore) (x : TaskId) : Option FunctionData :=
  match x.kind with
  | .function | .method | .operator | .constructor =>
    (s.program.decl? x.decl).bind Decl.function
  | .layout | .entry => none

/-- The code of a task: of the entry the initial values of the globals and the main statements, of
a function its body if it has one. -/
inductive InCode (s : TypeStore) : TaskId → ExprId → Expr → Prop
  | init {decl : DeclId} {d : Decl} {g : GlobalData} {id : ExprId} {e : Expr}
      (hd : (decl, d) ∈ s.program.numberedDecls) (hkind : d.kind = .global)
      (hg : d.global = some g) (he : s.program.OccursInExpr g.init id e) : InCode s .entry id e
  | main {id : ExprId} {e : Expr} (he : s.program.OccursInStmts s.program.main id e) :
      InCode s .entry id e
  | body {x : TaskId} {f : FunctionData} {id : ExprId} {e : Expr} (hf : s.function? x = some f)
      (hbody : f.hasBody) (he : s.program.OccursInStmts f.body id e) : InCode s x id e

/-- A type is written in the code of a task: it is that of its owner, its result, a local or an
expression. -/
inductive MentionsInCode (s : TypeStore) (x : TaskId) : Handle → Prop
  | owner : MentionsInCode s x x.owner
  | result {σ : List Handle} {f : FunctionData} {h : Handle} (hscope : s.scope? x = some σ)
      (hf : s.function? x = some f) (hh : s.denote f.result σ = some h) : MentionsInCode s x h
  | loc {σ : List Handle} {f : FunctionData} {l : Local} {h : Handle} (hscope : s.scope? x = some σ)
      (hf : s.function? x = some f) (hl : l ∈ f.locals) (hh : s.denote l.type σ = some h) :
      MentionsInCode s x h
  | mainLocal {l : Local} {h : Handle} (hx : x = .entry) (hl : l ∈ s.program.mainLocals)
      (hh : s.denote l.type [] = some h) : MentionsInCode s x h
  | expr {σ : List Handle} {id : ExprId} {e : Expr} {h : Handle} (hscope : s.scope? x = some σ)
      (he : s.InCode x id e) (hh : s.denote e.type σ = some h) : MentionsInCode s x h

/-- A type is mentioned by a task: in its code, or, for the entry, as the type of a global. -/
inductive Mentions (s : TypeStore) (x : TaskId) : Handle → Prop
  | code {h : Handle} (hh : s.MentionsInCode x h) : Mentions s x h
  | global {decl : DeclId} {d : Decl} {g : GlobalData} {h : Handle} (hx : x = .entry)
      (hd : (decl, d) ∈ s.program.numberedDecls) (hkind : d.kind = .global)
      (hg : d.global = some g) (hh : s.denote g.type [] = some h) : Mentions s x h

/-- A task uses a function as a value. -/
inductive RefersByValue (s : TypeStore) (x : TaskId) : TaskId → Prop
  | mk {σ args : List Handle} {id : ExprId} {e : Expr} {d : Decl} (hscope : s.scope? x = some σ)
      (he : s.InCode x id e) (hkind : e.kind = .funcRef) (hd : s.program.decl? e.decl = some d)
      (hnative : d.has .native = false) (hargs : s.denoteAll e.typeArgs σ = some args) :
      RefersByValue s x (.function e.decl args)

/-- A task calls a function or uses it as a value, or it calls a method, an operator or a
constructor. -/
inductive Refers (s : TypeStore) (x : TaskId) : TaskId → Prop
  | value {y : TaskId} (hy : s.RefersByValue x y) : Refers s x y
  | call {σ args : List Handle} {id : ExprId} {e : Expr} {d : Decl} (hscope : s.scope? x = some σ)
      (he : s.InCode x id e) (hkind : e.kind = .call) (hd : s.program.decl? e.decl = some d)
      (hnative : d.has .native = false) (hargs : s.denoteAll e.typeArgs σ = some args) :
      Refers s x (.function e.decl args)
  | method {σ : List Handle} {id : ExprId} {e receiver : Expr} {h : Handle} {decl : DeclId}
      (hscope : s.scope? x = some σ) (he : s.InCode x id e) (hkind : e.kind = .methodCall)
      (hreceiver : s.program.expr? e.x = some receiver) (hh : s.denote receiver.type σ = some h)
      (hdecl : s.method? h e.name = some decl) : Refers s x (.method decl h)
  | operator {σ : List Handle} {id : ExprId} {e receiver : Expr} {h : Handle} {decl : DeclId}
      (hscope : s.scope? x = some σ) (he : s.InCode x id e) (hkind : e.kind = .operator)
      (hreceiver : s.program.expr? e.x = some receiver) (hh : s.denote receiver.type σ = some h)
      (hdecl : s.operator? h e.op = some decl) : Refers s x (.operator decl h)
  | constructor {σ : List Handle} {id : ExprId} {e : Expr} {h : Handle} {decl : DeclId}
      (hscope : s.scope? x = some σ) (he : s.InCode x id e) (hkind : e.kind = .construct)
      (hh : s.denote e.type σ = some h) (hdecl : s.constructor? h = some decl) :
      Refers s x (.constructor decl h)

end TypeStore

/-- A function has a decorator that does not fit it: it is foreign with a body or without a symbol,
or native with a body or under a name that is no intrinsic. -/
def Decl.Misfit (d : Decl) : Prop :=
  d.kind = .function ∧ ∃ f, d.function = some f ∧
    ((d.has .foreign ∧ (f.hasBody ∨ d.foreignSymbol = "")) ∨
      (d.has .native ∧ (f.hasBody ∨ isIntrinsic d.nativeName = false)))

/-- A function with the number has a decorator that does not fit it. -/
def Program.Misdecorated (p : Program) (id : DeclId) : Prop :=
  ∃ d, (id, d) ∈ p.numberedDecls ∧ d.Misfit

/-- A function is compiled in any case: a plain one without generic parameters and native code that
is exported, asked for by a decorator or a root of the program, and has no wrong decorator. -/
def Program.Seeds (p : Program) (id : DeclId) (d : Decl) : Prop :=
  d.kind = .function ∧ (∃ f, d.function = some f ∧ f.kind = .plain) ∧
    (d.has .exported ∨ d.has .compiled ∨ id ∈ p.roots) ∧ d.isGeneric = false ∧
    d.has .native = false ∧ ¬p.Misdecorated id

def Program.Seeded (p : Program) (id : DeclId) : Prop :=
  ∃ d, (id, d) ∈ p.numberedDecls ∧ p.Seeds id d

/-- The tasks of a program, where `mentions` says what types a task brings in. -/
inductive TypeStore.Reached (s : TypeStore) (mentions : TaskId → Handle → Prop) : TaskId → Prop
  | entry : Reached s mentions .entry
  | seed {id : DeclId} (hid : s.program.Seeded id) : Reached s mentions (.function id [])
  | refers {x y : TaskId} (hx : Reached s mentions x) (hy : s.Refers x y) : Reached s mentions y
  | layout {x : TaskId} {h g : Handle} (hx : Reached s mentions x) (hh : mentions x h)
      (hg : ReflTransGen s.Leads h g) (hagg : s.IsAggregate g) : Reached s mentions (.layout g)

namespace TypeStore

variable {s s' : TypeStore}

/-! ## What is read off a store stays true -/

theorem Keeps.declared? (hk : s.Keeps s') {h : Handle} {r : AggregateData × List Handle}
    (hr : s.declared? h = some r) : s'.declared? h = some r := by
  obtain ⟨a, ha, rfl⟩ := Option.map_eq_some_iff.1 hr
  obtain ⟨a', ha', htemplate, hargs⟩ := hk.application? ha
  refine Option.map_eq_some_iff.2 ⟨a', ha', ?_⟩
  simp only [Application.aggregate, htemplate, hargs, hk.program]

theorem Keeps.method? (hk : s.Keeps s') {h : Handle} {name : Text} {decl : DeclId}
    (hd : s.method? h name = some decl) : s'.method? h name = some decl := by
  obtain ⟨r, hr, hd⟩ := Option.bind_eq_some_iff.1 hd
  exact Option.bind_eq_some_iff.2 ⟨r, hk.declared? hr, by rw [hk.program]; exact hd⟩

theorem Keeps.operator? (hk : s.Keeps s') {h : Handle} {op : Operator} {decl : DeclId}
    (hd : s.operator? h op = some decl) : s'.operator? h op = some decl := by
  obtain ⟨r, hr, hd⟩ := Option.bind_eq_some_iff.1 hd
  exact Option.bind_eq_some_iff.2 ⟨r, hk.declared? hr, by rw [hk.program]; exact hd⟩

theorem Keeps.constructor? (hk : s.Keeps s') {h : Handle} {decl : DeclId}
    (hd : s.constructor? h = some decl) : s'.constructor? h = some decl := by
  obtain ⟨r, hr, hd⟩ := Option.bind_eq_some_iff.1 hd
  exact Option.bind_eq_some_iff.2 ⟨r, hk.declared? hr, hd⟩

theorem Keeps.isAggregate (hk : s.Keeps s') {h : Handle} (hh : s.IsAggregate h) :
    s'.IsAggregate h := by
  obtain ⟨k, hkind, hagg⟩ := hh
  exact ⟨k, hk.kindOf hkind, hagg⟩

theorem Keeps.leads (hk : s.Keeps s') {h g : Handle} (hl : s.Leads h g) : s'.Leads h g := by
  cases hl with
  | pointer ha htemplate =>
    obtain ⟨a', ha', htemplate', hargs'⟩ := hk.application? ha
    have := Leads.pointer ha' (htemplate'.trans htemplate)
    simpa only [Application.elem, htemplate', hargs'] using this
  | function ha htemplate hg =>
    obtain ⟨a', ha', htemplate', hargs'⟩ := hk.application? ha
    refine Leads.function ha' (htemplate'.trans htemplate) ?_
    simpa only [Application.params, Application.result, htemplate', hargs'] using hg
  | member hagg hf hg => exact .member (hk.declared? hagg) hf (hk.denote hg)

theorem Keeps.scope? (hk : s.Keeps s') {x : TaskId} {σ : List Handle} (hσ : s.scope? x = some σ) :
    s'.scope? x = some σ := by
  have member (h : (s.application? x.owner).map Application.args = some σ) :
      (s'.application? x.owner).map Application.args = some σ := by
    obtain ⟨a, ha, rfl⟩ := Option.map_eq_some_iff.1 h
    obtain ⟨a', ha', -, hargs⟩ := hk.application? ha
    exact Option.map_eq_some_iff.2 ⟨a', ha', hargs⟩
  unfold TypeStore.scope? at *
  cases hkind : x.kind <;> rw [hkind] at hσ <;> first | exact member hσ | exact hσ

theorem Keeps.function? (hk : s.Keeps s') (x : TaskId) : s'.function? x = s.function? x := by
  unfold TypeStore.function?
  rw [hk.program]

theorem Keeps.inCode (hk : s.Keeps s') {x : TaskId} {id : ExprId} {e : Expr}
    (he : s.InCode x id e) : s'.InCode x id e := by
  cases he with
  | init hd hkind hg he =>
    exact .init (by rw [hk.program]; exact hd) hkind hg (by rw [hk.program]; exact he)
  | main he => exact .main (by rw [hk.program]; exact he)
  | body hf hbody he => exact .body ((hk.function? x).trans hf) hbody (by rw [hk.program]; exact he)

theorem Keeps.mentionsInCode (hk : s.Keeps s') {x : TaskId} {h : Handle}
    (hh : s.MentionsInCode x h) : s'.MentionsInCode x h := by
  cases hh with
  | owner => exact .owner
  | result hscope hf hh => exact .result (hk.scope? hscope) ((hk.function? x).trans hf) (hk.denote hh)
  | loc hscope hf hl hh =>
    exact .loc (hk.scope? hscope) ((hk.function? x).trans hf) hl (hk.denote hh)
  | mainLocal hx hl hh => exact .mainLocal hx (by rw [hk.program]; exact hl) (hk.denote hh)
  | expr hscope he hh => exact .expr (hk.scope? hscope) (hk.inCode he) (hk.denote hh)

theorem Keeps.mentions (hk : s.Keeps s') {x : TaskId} {h : Handle} (hh : s.Mentions x h) :
    s'.Mentions x h := by
  cases hh with
  | code hh => exact .code (hk.mentionsInCode hh)
  | global hx hd hkind hg hh =>
    exact .global hx (by rw [hk.program]; exact hd) hkind hg (hk.denote hh)

theorem Keeps.refersByValue (hk : s.Keeps s') {x y : TaskId} (hy : s.RefersByValue x y) :
    s'.RefersByValue x y := by
  obtain ⟨hscope, he, hkind, hd, hnative, hargs⟩ := hy
  exact .mk (hk.scope? hscope) (hk.inCode he) hkind (by rw [hk.program]; exact hd) hnative
    (hk.denoteAll hargs)

theorem Keeps.refers (hk : s.Keeps s') {x y : TaskId} (hy : s.Refers x y) : s'.Refers x y := by
  cases hy with
  | value hy => exact .value (hk.refersByValue hy)
  | call hscope he hkind hd hnative hargs =>
    exact .call (hk.scope? hscope) (hk.inCode he) hkind (by rw [hk.program]; exact hd) hnative
      (hk.denoteAll hargs)
  | method hscope he hkind hreceiver hh hdecl =>
    exact .method (hk.scope? hscope) (hk.inCode he) hkind (by rw [hk.program]; exact hreceiver)
      (hk.denote hh) (hk.method? hdecl)
  | operator hscope he hkind hreceiver hh hdecl =>
    exact .operator (hk.scope? hscope) (hk.inCode he) hkind (by rw [hk.program]; exact hreceiver)
      (hk.denote hh) (hk.operator? hdecl)
  | constructor hscope he hkind hh hdecl =>
    exact .constructor (hk.scope? hscope) (hk.inCode he) hkind (hk.denote hh) (hk.constructor? hdecl)

theorem Keeps.reached (hk : s.Keeps s') {x : TaskId} (hx : s.Reached s.Mentions x) :
    s'.Reached s'.Mentions x := by
  induction hx with
  | entry => exact .entry
  | seed hid => exact .seed (by rw [hk.program]; exact hid)
  | refers _ hy ih => exact .refers ih (hk.refers hy)
  | layout _ hh hg hagg ih =>
    exact .layout ih (hk.mentions hh) (ReflTransGen.mono (fun _ _ ↦ hk.leads) _ _ hg) (hk.isAggregate hagg)

/-- Only aggregates declare members. -/
theorem isAggregate_of_field {h : Handle} {agg : AggregateData} {args : List Handle} {f : Field}
    (hagg : s.declared? h = some (agg, args)) (hf : f ∈ agg.fields) : s.IsAggregate h := by
  obtain ⟨a, ha, hr⟩ := Option.map_eq_some_iff.1 hagg
  obtain ⟨rfl, -⟩ := Prod.mk.inj hr
  refine ⟨_, kindOf_eq ha, ?_⟩
  unfold Application.aggregate at hf
  split at hf
  · rename_i htemplate
    rw [htemplate]
    simp only [Template.kind]
    split <;> rfl
  · cases hf

/-- Every task has a scope: member functions are found at types that are there. -/
theorem Reached.scope? {mentions : TaskId → Handle → Prop} {x : TaskId}
    (hx : s.Reached mentions x) : ∃ σ, s.scope? x = some σ := by
  have member {h : Handle} {r : AggregateData × List Handle} (hr : s.declared? h = some r) :
      ∃ σ, (s.application? h).map Application.args = some σ := by
    obtain ⟨a, ha, -⟩ := Option.map_eq_some_iff.1 hr
    exact ⟨a.args, Option.map_eq_some_iff.2 ⟨a, ha, rfl⟩⟩
  cases hx with
  | entry => exact ⟨_, rfl⟩
  | seed => exact ⟨_, rfl⟩
  | layout => exact ⟨_, rfl⟩
  | refers _ hy =>
    cases hy with
    | value hy =>
      obtain ⟨⟩ := hy
      exact ⟨_, rfl⟩
    | call => exact ⟨_, rfl⟩
    | method _ _ _ _ _ hdecl =>
      obtain ⟨r, hr, -⟩ := Option.bind_eq_some_iff.1 hdecl
      exact member hr
    | operator _ _ _ _ _ hdecl =>
      obtain ⟨r, hr, -⟩ := Option.bind_eq_some_iff.1 hdecl
      exact member hr
    | constructor _ _ _ _ hdecl =>
      obtain ⟨r, hr, -⟩ := Option.bind_eq_some_iff.1 hdecl
      exact member hr

/-- References are to functions of some kind. -/
theorem Refers.kind_ne {x y : TaskId} (hy : s.Refers x y) : y.kind ≠ .entry ∧ y.kind ≠ .layout := by
  cases hy with
  | value hy =>
    obtain ⟨⟩ := hy
    exact ⟨nofun, nofun⟩
  | call | method | operator | constructor => exact ⟨nofun, nofun⟩

theorem Reached.isAggregate {mentions : TaskId → Handle → Prop} {x : TaskId}
    (hx : s.Reached mentions x) (hkind : x.kind = .layout) : s.IsAggregate x.owner := by
  cases hx with
  | entry => cases hkind
  | seed => cases hkind
  | layout _ _ _ hagg => exact hagg
  | refers _ hy => exact absurd hkind hy.kind_ne.2

theorem Reached.eq_entry {mentions : TaskId → Handle → Prop} {x : TaskId}
    (hx : s.Reached mentions x) (hkind : x.kind = .entry) : x = .entry := by
  cases hx with
  | entry => rfl
  | seed => cases hkind
  | layout => cases hkind
  | refers _ hy => exact absurd hkind hy.kind_ne.1

/-! ## What the built type of a handle says about it -/

theorem Faithful.declared? (hs : s.Faithful) {h : Handle} {t : ConcreteType}
    (ht : s.type? h = some t) (hh : h ≠ 0) :
    ∃ agg, s.declared? h = some (agg, t.args) ∧ agg.init = t.init ∧
      methodTable s.program agg.methods = .ok t.methods ∧
      operatorTable s.program agg.operators = .ok t.operators ∧
      List.Forall₂ (fun f m ↦ m.name = f.name ∧ s.denote f.type t.args = some m.type)
        agg.fields t.members := by
  obtain ⟨a, ha, hat⟩ := Option.bind_eq_some_iff.1 (by simpa [type?, hh] using ht)
  obtain ⟨-, hfits⟩ := hs h a t ha hat
  refine ⟨a.aggregate s.program, ?_, hfits.init.symm, hfits.methods, hfits.operators, ?_⟩
  · rw [TypeStore.declared?, ha, hfits.args]
    rfl
  · rw [hfits.args]
    exact hfits.members

theorem Faithful.method? (hs : s.Faithful) {h : Handle} {t : ConcreteType} {name : Text}
    {decl : DeclId} (ht : s.type? h = some t) (hd : t.method? name = some decl) :
    s.method? h name = some decl := by
  have hh : h ≠ 0 := ne_zero_of_type? ht (by rintro rfl; cases hd)
  obtain ⟨agg, hagg, -, hmethods, -⟩ := hs.declared? ht hh
  refine Option.bind_eq_some_iff.2 ⟨_, hagg, ?_⟩
  show (methodTable s.program agg.methods).toOption.bind _ = _
  rw [hmethods]
  exact hd

theorem Faithful.operator? (hs : s.Faithful) {h : Handle} {t : ConcreteType} {op : Operator}
    {decl : DeclId} (ht : s.type? h = some t) (hd : t.operator? op = some decl) :
    s.operator? h op = some decl := by
  have hh : h ≠ 0 := ne_zero_of_type? ht (by rintro rfl; cases hd)
  obtain ⟨agg, hagg, -, -, hoperators, -⟩ := hs.declared? ht hh
  refine Option.bind_eq_some_iff.2 ⟨_, hagg, ?_⟩
  show (operatorTable s.program agg.operators).toOption.bind _ = _
  rw [hoperators]
  exact hd

theorem Faithful.leads_elem (hs : s.Faithful) {h : Handle} {t : ConcreteType}
    (ht : s.type? h = some t) (hne : t.elem ≠ 0) : s.Leads h t.elem := by
  have hh : h ≠ 0 := ne_zero_of_type? ht (by rintro rfl; exact hne rfl)
  obtain ⟨a, ha, hat⟩ := Option.bind_eq_some_iff.1 (by simpa [type?, hh] using ht)
  have helem := (hs h a t ha hat).2.elem
  rw [helem] at hne ⊢
  refine .pointer ha ?_
  unfold Application.elem at hne
  split at hne
  · assumption
  · exact absurd rfl hne

theorem Faithful.leads_part (hs : s.Faithful) {h g : Handle} {t : ConcreteType}
    (ht : s.type? h = some t) (hg : g ∈ t.params ++ [t.result]) (hne : g ≠ 0) : s.Leads h g := by
  have hh : h ≠ 0 := by
    rintro rfl
    obtain rfl : ConcreteType.void = t := Option.some.inj ht
    exact hne (by simpa [ConcreteType.void] using hg)
  obtain ⟨a, ha, hat⟩ := Option.bind_eq_some_iff.1 (by simpa [type?, hh] using ht)
  obtain ⟨-, hfits⟩ := hs h a t ha hat
  rw [hfits.params, hfits.result] at hg
  refine .function ha ?_ hg
  by_contra hnot
  have hnone : a.params = [] ∧ a.result = 0 := by
    unfold Application.params Application.result
    constructor <;> split <;> first | exact absurd ‹_› hnot | rfl
  rw [hnone.1, hnone.2] at hg
  exact hne (by simpa using hg)

theorem Faithful.leads_member (hs : s.Faithful) {h : Handle} {t : ConcreteType} {m : Member}
    (ht : s.type? h = some t) (hm : m ∈ t.members) : s.Leads h m.type := by
  have hh : h ≠ 0 := ne_zero_of_type? ht (by rintro rfl; cases hm)
  obtain ⟨agg, hagg, -, -, -, hmembers⟩ := hs.declared? ht hh
  obtain ⟨i, hi, rfl⟩ := List.mem_iff_getElem.1 hm
  have hi' : i < agg.fields.length := hmembers.length_eq ▸ hi
  exact .member hagg (List.getElem_mem hi') (hmembers.get hi' hi).2

end TypeStore

end WasmBackend
