import WasmBackend.Proofs.Types.Descent

/-!
# Any sequence of operations

Between two operations no type is under construction and every type has the name of its ground
type, and each operation that returns leaves the store so.  So an operation never comes back to a
type that is being built, and a handle has one name whatever is built before it.
-/

namespace WasmBackend.TypeStore

open Relation (ReflTransGen)
open Stage (Meets Ensures)

variable {s s' : TypeStore} {h : Handle} {p : Program} {q : Prop}

/-! ## Between operations -/

/-- No type is under construction, and types have the names of their ground types. -/
structure AtRest (s : TypeStore) : Prop extends s.WellNamed where
  idle : ∀ h, s.Idle h

theorem atRest_ofProgram (p : Program) : (ofProgram p).AtRest where
  toWellNamed := wellNamed_ofProgram p
  idle := by
    intro h g _ a ha
    simp [application?, ofProgram] at ha

theorem Grows.atRest (hg : s.Grows s') (hs : s.AtRest) : s'.AtRest where
  toWellNamed := hg.wellNamed
  idle := fun h ↦ hg.idle (hs.idle h)

theorem AtRest.namesAt_getType (hs : s.AtRest) (hp : s.program = p) (hlt : h < s.size) :
    NamesAt p getType s h := by
  unfold NamesAt getType
  rw [Stage.meets_bind, Stage.meets_get]
  exact meets_getWithin hs.toWellNamed hp (hs.idle h) hlt
    (Nat.lt_of_lt_of_le hlt (by omega))

theorem Follows.named_iff {name : Text} (hf : s.Follows s') (hs : s.Ordered) (hlt : h < s.size) :
    s'.Named h name ↔ s.Named h name := by
  refine ⟨fun hn ↦ ⟨(hf.whole_iff hs hlt).1 hn.whole, ?_⟩, hf.named hs⟩
  rw [hn.name_eq, hf.program, hf.ground_eq hs hlt]

theorem meets_nameOf (hs : s.AtRest) (hp : s.program = p) (hlt : h < s.size) :
    Meets (nameOf h) s (Failure.Acyclic p.EndlessMember) fun name s' ↦
      s.Grows s' ∧ s'.Named h name := by
  unfold nameOf
  rw [Stage.meets_bind]
  exact (hs.namesAt_getType hp hlt).imp fun t s' h ↦ ⟨h.1, h.1.wellNamed.named _ t h.2⟩

/-- The name of a handle is returned exactly when the type can be built. -/
theorem AtRest.nameOf_eq_iff (hs : s.AtRest) (hlt : h < s.size) {name : Text} :
    (nameOf h s).1 = .ok name ↔ s.Named h name := by
  have hname := (meets_nameOf hs rfl hlt).ensures
  constructor
  · intro hok
    obtain ⟨hgrows, hn⟩ := hname.of_eq (Prod.ext hok rfl)
    exact (hgrows.toFollows.named_iff hs.ordered hlt).1 hn
  · intro hn
    have hbuilt : Stage.Succeeds (nameOf h) s fun _ _ ↦ True := by
      unfold Stage.Succeeds nameOf
      rw [Stage.meets_bind]
      exact (leaves_getType hs.toStandard hlt).2.mono
        (fun _ hfail ↦ hfail (hn.whole.buildable hs.ordered (hs.idle h))) fun _ _ _ ↦ trivial
    obtain ⟨name', s', heq, -⟩ := Stage.succeeds_iff.1 hbuilt
    obtain ⟨hgrows, hn'⟩ := hname.of_eq heq
    rw [heq, hn.name_eq, hn'.name_eq, hgrows.program, hgrows.ground_eq hs.ordered hlt]

/-! ## Operations -/

/-- What the store can be asked for. -/
inductive Operation where
  | specialize (identity : Text) (args : List Handle)
  | primitive (x : Prim)
  | pointer (elem : Handle)
  | function (params : List Handle) (result : Handle)
  | aggregate (decl : DeclId) (args : List Handle)
  | resolve (ids : List TypeId) (scope : List Handle)
  | get (h : Handle)
  | name (h : Handle)
  | mangle (name : Text) (args : List Handle)
  | functionName (decl : DeclId) (args : List Handle)
  | memberName (owner : Handle) (decl : DeclId)

namespace Operation

/-- The handles an operation is given. -/
def given : Operation → List Handle
  | specialize _ args | aggregate _ args | mangle _ args | functionName _ args => args
  | primitive _ => []
  | pointer elem => [elem]
  | function params result => params ++ [result]
  | resolve _ scope => scope
  | get h | name h => [h]
  | memberName owner _ => [owner]

/-- The type expressions an operation is given. -/
def expressions : Operation → List TypeId
  | resolve ids _ => ids
  | _ => []

def run : Operation → M Unit
  | specialize identity args => do let _ ← TypeStore.specialize identity args
  | primitive x => do let _ ← prim x
  | pointer elem => do let _ ← pointerTo elem
  | function params result => do let _ ← functionType params result
  | aggregate decl args => do let _ ← instantiate decl args
  | resolve ids scope => do let _ ← resolveAll ids scope
  | get h => do let _ ← getType h
  | name h => do let _ ← nameOf h
  | mangle base args => do let _ ← TypeStore.mangle base args
  | functionName decl args => do let _ ← TypeStore.functionName decl args
  | memberName owner decl => do let _ ← TypeStore.memberName owner decl

end Operation

/-- Making a handle from handles there are. -/
theorem meets_making {x : M Handle} {err : Failure → Prop} {r : Handle → TypeStore → Prop}
    (hs : s.WellNamed) (hmakes : Makes x s err)
    (hx : Meets x s (Failure.Acyclic q) fun h s' ↦ s.MakesOnly s' ∧ r h s') :
    Meets x s (Failure.Acyclic q) fun _ s' ↦ s.Grows s' :=
  (hx.and hmakes.2.ensures).imp fun _ _ h ↦ h.2.1.grows hs h.1.1

theorem meets_resolveAll (hs : s.WellNamed) (hp : s.program = p) (ids : List TypeId)
    {scope : List Handle} (hscope : ∀ g ∈ scope, g < s.size) :
    Meets (resolveAll ids scope) s (Failure.Acyclic (∃ id ∈ ids, p.Endless id))
      fun _ s' ↦ s.Grows s' := by
  refine Stage.meets_mapM (fun _ _ t ↦ s.Grows t) hs.grows_refl ?_
  rintro done id rest handles t rfl ht
  have hresolve := meets_resolve ht.wellNamed.toStandard id (ht.all_lt_size hscope)
  rw [ht.program, hp] at hresolve
  exact hresolve.mono (fun _ he ↦ he.mono fun hd ↦ ⟨id, by simp, hd⟩)
    fun _ _ h ↦ ht.trans (h.1.1.grows ht.wellNamed h.2.1)

theorem meets_mangle (hs : s.AtRest) (hp : s.program = p) (base : Text) {args : List Handle}
    (hargs : ∀ g ∈ args, g < s.size) :
    Meets (mangle base args) s (Failure.Acyclic p.EndlessMember) fun _ s' ↦ s.Grows s' :=
  (meets_mangleWith hs.toWellNamed base fun g hg _ ht ↦
    (ht.atRest hs).namesAt_getType (ht.program.trans hp) (ht.lt_size (hargs g hg))).imp
      fun _ _ h ↦ h.1

theorem meets_functionName (hs : s.AtRest) (hp : s.program = p) (decl : DeclId)
    {args : List Handle} (hargs : ∀ g ∈ args, g < s.size) :
    Meets (functionName decl args) s (Failure.Acyclic p.EndlessMember) fun _ s' ↦ s.Grows s' := by
  unfold functionName
  rw [Stage.meets_bind, Stage.meets_get]
  cases s.program.decl? decl with
  | none => exact Failure.acyclic_fault
  | some d => exact meets_mangle hs hp d.name hargs

theorem meets_memberName (hs : s.AtRest) (hp : s.program = p) {owner : Handle}
    (howner : owner < s.size) (decl : DeclId) :
    Meets (memberName owner decl) s (Failure.Acyclic p.EndlessMember) fun _ s' ↦ s.Grows s' := by
  unfold memberName
  rw [Stage.meets_bind, Stage.meets_get]
  cases s.program.decl? decl with
  | none => exact Failure.acyclic_fault
  | some d =>
    simp only [Stage.some!, Stage.meets_bind, Stage.meets_pure]
    refine (meets_nameOf hs hp howner).imp ?_
    rintro base s' ⟨hgrows, -⟩
    cases d.function with
    | none => exact Failure.acyclic_fault
    | some f =>
      simp only [Stage.meets_pure]
      split <;> exact hgrows

/-- An operation fails without a circle, and one that returns leaves the store well named. -/
theorem Operation.meets_run (hs : s.AtRest) (hp : s.program = p) (x : Operation)
    (hgiven : ∀ g ∈ x.given, g < s.size) :
    Meets x.run s
      (Failure.Acyclic (p.EndlessMember ∨ ∃ id ∈ x.expressions, p.Endless id))
      fun _ s' ↦ s.Grows s' := by
  have hwell := hs.toWellNamed
  have hstandard := hs.toStandard
  have named {α : Type} {y : M α}
      (hy : Meets y s (Failure.Acyclic p.EndlessMember) fun _ s' ↦ s.Grows s') :
      Meets y s (Failure.Acyclic (p.EndlessMember ∨ ∃ id ∈ x.expressions, p.Endless id))
        fun _ s' ↦ s.Grows s' :=
    hy.mono (fun _ he ↦ he.mono .inl) fun _ _ h ↦ h
  cases x <;> unfold run <;> rw [Stage.meets_bind]
  case specialize identity args =>
    exact meets_making hwell (makes_specialize hgiven) (meets_specialize identity args)
  case primitive x => exact meets_making hwell (makes_prim hstandard x) (meets_prim hstandard x)
  case pointer elem =>
    exact meets_making hwell (makes_specialize hgiven) (meets_specialize "ptr" [elem])
  case function params result =>
    exact meets_making hwell (makes_specialize hgiven) (meets_specialize "fn" (params ++ [result]))
  case aggregate decl args =>
    exact meets_making hwell (makes_instantiate hstandard hgiven)
      (meets_instantiate hstandard decl args)
  case resolve ids scope =>
    exact (meets_resolveAll hwell hp ids hgiven).mono (fun _ he ↦ he.mono .inr) fun _ _ h ↦ h
  case get h =>
    exact named ((hs.namesAt_getType hp (hgiven h (by simp [given]))).imp fun _ _ h ↦ h.1)
  case name h =>
    exact named ((meets_nameOf hs hp (hgiven h (by simp [given]))).imp fun _ _ h ↦ h.1)
  case mangle base args => exact named (meets_mangle hs hp base hgiven)
  case functionName decl args => exact named (meets_functionName hs hp decl hgiven)
  case memberName owner decl =>
    exact named (meets_memberName hs hp (hgiven owner (by simp [given])) decl)

/-- An operation with the empty type and handles made before, which returns. -/
def Performed (s s' : TypeStore) : Prop :=
  ∃ x : Operation, (∀ g ∈ x.given, g < s.size) ∧ x.run s = (.ok ⟨⟩, s')

theorem Performed.grows (hs : s.AtRest) (hx : s.Performed s') : s.Grows s' := by
  obtain ⟨x, hgiven, heq⟩ := hx
  exact (x.meets_run hs rfl hgiven).ensures.of_eq heq

theorem AtRest.of_operations (hs : s.AtRest) (hx : ReflTransGen Performed s s') :
    s.Grows s' ∧ s'.AtRest := by
  induction hx with
  | refl => exact ⟨hs.grows_refl, hs⟩
  | tail _ hx ih =>
    have hgrows := hx.grows ih.2
    exact ⟨ih.1.trans hgrows, hgrows.atRest ih.2⟩

/-- Whatever operations come in between, a handle has the name that it would have had before. -/
theorem AtRest.toOption_nameOf (hs : s.AtRest) (hx : ReflTransGen Performed s s')
    (hlt : h < s.size) {name : Text} :
    (nameOf h s').1.toOption = some name ↔ s.Named h name := by
  obtain ⟨hgrows, hrest⟩ := hs.of_operations hx
  rw [← hgrows.toFollows.named_iff hs.ordered hlt, ← hrest.nameOf_eq_iff (hgrows.lt_size hlt)]
  cases (nameOf h s').1 <;> simp [Except.toOption]

/-- The store after some operations. -/
def after (s : TypeStore) (xs : List Operation) : TypeStore :=
  xs.foldl (fun s x ↦ (x.run s).2) s

theorem performed_after (xs : List Operation) (x : Operation)
    (hgiven : ∀ g ∈ x.given, g < (s.after xs).size) (hok : (x.run (s.after xs)).1 = .ok ⟨⟩) :
    Performed (s.after xs) (s.after (xs ++ [x])) := by
  refine ⟨x, hgiven, Prod.ext hok ?_⟩
  rw [after, after, List.foldl_append, List.foldl_cons, List.foldl_nil]

/-- Two generic classes with members of each other: a node points to a node of the same kind and
holds an edge, and an edge leads to a node of pointers.  Type expression 8 is `Node<i32>`. -/
def nodesAndEdges : Program where
  decls := #[
    { kind := .cls, name := "Node", generics := ["T"]
      aggregate := some { fields := [⟨"next", 3, {}⟩, ⟨"edge", 4, {}⟩] } },
    { kind := .cls, name := "Edge", generics := ["T"]
      aggregate := some { fields := [⟨"to", 6, {}⟩] } }]
  types := #[{ kind := .param }, { kind := .named, decl := 1, args := [1] },
    { kind := .pointer, elem := 2 }, { kind := .named, decl := 2, args := [1] },
    { kind := .pointer, elem := 1 }, { kind := .named, decl := 1, args := [5] },
    { kind := .prim, prim := .i32 }, { kind := .named, decl := 1, args := [7] }]

end WasmBackend.TypeStore
