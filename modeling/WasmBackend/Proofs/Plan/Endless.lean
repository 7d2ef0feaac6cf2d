import WasmBackend.Proofs.Plan.Limit
import WasmBackend.Proofs.Types.Handles

/-!
# Programs without a plan

A generic aggregate that points to its own instance at a pointer to its parameter needs the layout
of that instance with its own, and so of ever more instances.  A finished plan is closed under what
its tasks need and holds finitely many of them, so it has no such layout: scheduling a program that
needs one fails or is cut off, whatever the limit.
-/

namespace WasmBackend

/-! ## Forms of type expressions -/

namespace Program

variable (p : Program)

/-- The type expression is a pointer to another one. -/
def Points (t u : TypeId) : Prop :=
  ∃ e, p.typeExpr? t = some e ∧ e.kind = .pointer ∧ e.elem = u

/-- The type expression applies a declaration to one argument. -/
def Applies (t : TypeId) (d : DeclId) (u : TypeId) : Prop :=
  ∃ e, p.typeExpr? t = some e ∧ e.kind = .named ∧ e.decl = d ∧ e.args = [u]

/-- The type expression is the first generic parameter. -/
def IsParameter (t : TypeId) : Prop :=
  ∃ e, p.typeExpr? t = some e ∧ e.kind = .param ∧ e.index = 0

/-- The type expression is a primitive. -/
def IsPrimitive (t : TypeId) : Prop :=
  ∃ e, p.typeExpr? t = some e ∧ e.kind = .prim ∧ e.prim ≠ .none

/-- An aggregate has a field that points to its own instance at a pointer to its parameter. -/
def Nests (d : DeclId) : Prop :=
  (Template.aggregate d).Native p ∧ ∃ agg, (p.decl? d).bind Decl.aggregate = some agg ∧
    ∃ f ∈ agg.fields, ∃ t u v,
      p.Points f.type t ∧ p.Applies t d u ∧ p.Points u v ∧ p.IsParameter v

end Program

namespace TypeStore

variable {s : TypeStore} {t u : TypeId} {d : DeclId} {σ : List Handle} {depth : ℕ} {g : Handle}

theorem ne_zero_of_typeExpr? {p : Program} {e : TypeExpr} (he : p.typeExpr? t = some e) :
    t ≠ 0 := by
  rintro rfl
  cases he

theorem denoteWithin_points (ht : s.program.Points t u) (hg : s.denoteWithin depth t σ = some g) :
    ∃ depth' b, s.denoteWithin depth' u σ = some b ∧ s.handle? "ptr" [b] = some g := by
  obtain ⟨e, he, hkind, rfl⟩ := ht
  cases depth with
  | zero => cases hg
  | succ depth =>
    simp only [denoteWithin, ne_zero_of_typeExpr? he, if_false, he, hkind] at hg
    obtain ⟨b, hb, hg⟩ := Option.bind_eq_some_iff.1 hg
    exact ⟨depth, b, hb, hg⟩

theorem denoteWithin_applies (ht : s.program.Applies t d u)
    (hg : s.denoteWithin depth t σ = some g) :
    ∃ depth' b, s.denoteWithin depth' u σ = some b ∧ s.handle? (declIdentity d) [b] = some g := by
  obtain ⟨e, he, hkind, rfl, hargs⟩ := ht
  cases depth with
  | zero => cases hg
  | succ depth =>
    simp only [denoteWithin, ne_zero_of_typeExpr? he, if_false, he, hkind, hargs] at hg
    obtain ⟨bs, hbs, hg⟩ := Option.bind_eq_some_iff.1 hg
    obtain _ | ⟨hb, _ | _⟩ := mapM_eq_some_iff.1 hbs
    exact ⟨depth, _, hb, hg⟩

theorem denoteWithin_parameter {a : Handle} (ht : s.program.IsParameter t)
    (hg : s.denoteWithin depth t [a] = some g) : g = a := by
  obtain ⟨e, he, hkind, hindex⟩ := ht
  cases depth with
  | zero => cases hg
  | succ depth =>
    simp only [denoteWithin, ne_zero_of_typeExpr? he, if_false, he, hkind, hindex] at hg
    exact (Option.some.inj hg).symm

theorem denoteWithin_primitive (ht : s.program.IsPrimitive t)
    (hg : s.denoteWithin depth t σ = some g) : ∃ q, s.handle? (primIdentity q) [] = some g := by
  obtain ⟨e, he, hkind, hprim⟩ := ht
  cases depth with
  | zero => cases hg
  | succ depth =>
    simp only [denoteWithin, ne_zero_of_typeExpr? he, if_false, he, hkind, hprim] at hg
    exact ⟨e.prim, hg⟩

/-! ## Handles of templates -/

/-- The handle is that of a template at these arguments. -/
def IsOf (s : TypeStore) (x : Template) (args : List Handle) (h : Handle) : Prop :=
  ∃ b, s.application? h = some b ∧ b.template = x ∧ b.args = args

variable {p : Program} {a b h : Handle} {x : Template} {args args' : List Handle}

/-- What has the identity of a template that the program starts with is of that template. -/
theorem isOf_of_handle? (hs : (ofProgram p).Keeps s) (hx : x.Native p)
    (hh : s.handle? x.identity args = some h) : s.IsOf x args h := by
  obtain ⟨b, hb, hidentity, hargs⟩ := application?_of_handle? hh
  have hregular : s.Regular := hs.regular (standard_ofProgram p).regular
  have hfound : s.template? x.identity = some b.template :=
    hidentity ▸ hregular _ b (application?_eq_some.1 hb).2
  have hnative : s.template? x.identity = some x :=
    (hs.template? x.identity).trans ((standard_ofProgram p).template?_eq hx)
  exact ⟨b, hb, Option.some.inj (hfound.symm.trans hnative), hargs⟩

theorem isOf_pointer_of_handle? (hs : (ofProgram p).Keeps s)
    (hh : s.handle? "ptr" args = some h) : s.IsOf .pointer args h :=
  isOf_of_handle? (x := .pointer) hs (by simp [Template.Native, ofProgram, builtins]) hh

theorem IsOf.ne_zero (h' : s.IsOf x args h) : h ≠ 0 := by
  obtain ⟨b, hb, -⟩ := h'
  exact (application?_eq_some.1 hb).1

theorem IsOf.args_eq {y : Template} (hx : s.IsOf x args h) (hy : s.IsOf y args' h) :
    args = args' := by
  obtain ⟨b, hb, -, rfl⟩ := hx
  obtain ⟨c, hc, -, rfl⟩ := hy
  cases hb.symm.trans hc
  rfl

theorem IsOf.declared? {agg : AggregateData} (hh : s.IsOf (.aggregate d) args h)
    (hagg : (s.program.decl? d).bind Decl.aggregate = some agg) :
    s.declared? h = some (agg, args) := by
  obtain ⟨b, hb, htemplate, rfl⟩ := hh
  refine Option.map_eq_some_iff.2 ⟨b, hb, ?_⟩
  simp only [Application.aggregate, htemplate, hagg, Option.getD_some]

/-- No store has pointers to pointers without end. -/
theorem not_isOf_pointer_forever {f : ℕ → Handle} (hf : ∀ n, s.IsOf .pointer [f n] (f (n + 1)))
    (h₀ : ∀ args, s.IsOf .pointer args (f 0) → args = []) : False := by
  have hinjective : Function.Injective f := by
    intro i j heq
    induction i generalizing j with
    | zero =>
      cases j with
      | zero => rfl
      | succ j => cases h₀ _ (heq ▸ hf j)
    | succ i ih =>
      cases j with
      | zero => cases h₀ _ (heq ▸ hf i)
      | succ j =>
        have hargs : [f i] = [f j] := (heq ▸ hf i).args_eq (hf j)
        rw [ih (List.head_eq_of_cons_eq hargs)]
  have hlt (n : ℕ) : f (n + 1) < s.size := by
    obtain ⟨b, hb, -⟩ := hf n
    exact lt_size hb
  -- there would be as many handles as numbers
  apply not_injective_infinite_finite fun n : ℕ ↦ (⟨f (n + 1), hlt n⟩ : Fin s.size)
  intro i j hij
  exact Nat.succ.inj (hinjective (Fin.mk.inj hij))

end TypeStore

/-! ## Finished plans -/

namespace Scheduler

open TypeStore (denoteWithin_points denoteWithin_applies denoteWithin_parameter
  denoteWithin_primitive isOf_of_handle? isOf_pointer_of_handle?)

variable {s : Scheduler} {p : Program} {d : DeclId} {a h : Handle}

/-- A finished plan with the layout of an instance has that of the instance at a pointer. -/
theorem Explored.has_next (he : s.Explored) (hwork : s.work = [])
    (hstore : (TypeStore.ofProgram p).Keeps s.store) (hd : p.Nests d)
    (hh : s.store.IsOf (.aggregate d) [a] h) (hlayout : s.Has (.layout h)) :
    ∃ b g, s.store.IsOf .pointer [a] b ∧ s.store.IsOf (.aggregate d) [b] g ∧
      s.Has (.layout g) := by
  obtain ⟨hnative, agg, hagg, f, hf, t, u, v, ht, hu, huv, hv⟩ := hd
  have hprogram : p = s.store.program := hstore.program.symm
  rw [hprogram] at hagg ht hu huv hv
  obtain ⟨-, agg', args, hagg', hfields⟩ : s.CoversLayout h := he.coversTask hwork hlayout
  cases (hh.declared? hagg).symm.trans hagg'
  obtain ⟨q, hq, hrequired⟩ := hfields f hf
  obtain ⟨_, g, hg, hqg⟩ := denoteWithin_points ht hq
  obtain ⟨_, b, hb, hgb⟩ := denoteWithin_applies hu hg
  obtain ⟨_, c, hc, hbc⟩ := denoteWithin_points huv hb
  obtain rfl := denoteWithin_parameter hv hc
  have hinstance : s.store.IsOf (.aggregate d) [b] g := isOf_of_handle? hstore hnative hgb
  -- the field is required, so is what it points to
  have hpointer : s.store.IsOf .pointer [g] q := isOf_pointer_of_handle? hstore hqg
  obtain ⟨x, hx, -, hsettled, -⟩ := he.settled q (hrequired.resolve_left hpointer.ne_zero)
  obtain ⟨x', hx', htemplate, hargs⟩ := hpointer
  cases hx.symm.trans hx'
  have hgrequired : s.Requires g := by
    simpa [Application.elem, htemplate, hargs] using hsettled htemplate
  exact ⟨b, g, isOf_pointer_of_handle? hstore hbc, hinstance,
    he.has_layout hgrequired (TypeStore.isAggregate_of_field (hinstance.declared? hagg) hf)⟩

/-- A finished plan has no layout of an instance at anything but a pointer. -/
theorem Explored.not_has_layout (he : s.Explored) (hwork : s.work = [])
    (hstore : (TypeStore.ofProgram p).Keeps s.store) (hd : p.Nests d)
    (hh : s.store.IsOf (.aggregate d) [a] h)
    (ha : ∀ args, s.store.IsOf .pointer args a → args = []) : ¬s.Has (.layout h) := by
  intro hlayout
  let Argument := { b // ∃ g, s.store.IsOf (.aggregate d) [b] g ∧ s.Has (.layout g) }
  have hnext (b : Argument) : ∃ c : Argument, s.store.IsOf .pointer [b.1] c.1 := by
    obtain ⟨b, g, hg, hlayout⟩ := b
    obtain ⟨c, g', hc, hg', hlayout'⟩ := he.has_next hwork hstore hd hg hlayout
    exact ⟨⟨c, g', hg', hlayout'⟩, hc⟩
  choose next hnext using hnext
  let first : Argument := ⟨a, h, hh, hlayout⟩
  apply TypeStore.not_isOf_pointer_forever (f := fun n ↦ (next^[n] first).1)
  · intro n
    rw [Function.iterate_succ_apply']
    exact hnext _
  · exact ha

section Runs

variable {bag : Bag} {tracer : Trace.Tracer} {entryExport : Text} {parent limit : ℕ} {plan : Plan}

/-- **A program that needs an instance at a primitive gets no plan**, whatever the limit. -/
theorem run_ne_ok_of_nests (hd : p.Nests d) {l : Local} (hl : l ∈ p.mainLocals) {t : TypeId}
    (ht : p.Applies l.type d t) (hprim : p.IsPrimitive t) :
    (run entryExport parent limit).runFrom (ofProgram p bag tracer) ≠ (.ok plan, s) := by
  intro hrun
  obtain ⟨he, hwork, hprogram, -, -, -, hstore⟩ :=
    (ensures_run p bag tracer entryExport parent limit).of_eq hrun
  have hentry : s.Has .entry := by
    obtain ⟨first, hfirst, hid⟩ := he.first
    exact ⟨0, first, hfirst, hid⟩
  have hcovers : s.CoversEntry := he.coversTask hwork hentry
  rw [← hprogram] at hl ht hprim
  obtain ⟨h, hh, hrequired⟩ := hcovers.locals l hl
  obtain ⟨_, a, ha, hha⟩ := denoteWithin_applies ht hh
  obtain ⟨q, hq⟩ := denoteWithin_primitive hprim ha
  have hinstance : s.store.IsOf (.aggregate d) [a] h := isOf_of_handle? hstore hd.1 hha
  obtain ⟨x, hx, -, hargs⟩ := TypeStore.application?_of_handle? hq
  have hlayout : s.Has (.layout h) := by
    obtain ⟨-, agg, hagg, f, hf, -⟩ := hd
    rw [← hprogram] at hagg
    exact he.has_layout hrequired
      (TypeStore.isAggregate_of_field (hinstance.declared? hagg) hf)
  refine he.not_has_layout hwork hstore hd hinstance ?_ hlayout
  intro args hpointer
  exact hpointer.args_eq ⟨x, hx, rfl, hargs⟩

end Runs

/-- A list whose every node holds a list of pointers to what it holds itself. -/
def nestedPointers : Program where
  decls := #[{
    kind := .struct, name := "Nest", generics := ["T"],
    aggregate := some { fields := [{ name := "next", type := 5 }] } }]
  types := #[
    { kind := .prim, prim := .i32 }, { kind := .param }, { kind := .pointer, elem := 2 },
    { kind := .named, decl := 1, args := [3] }, { kind := .pointer, elem := 4 },
    { kind := .named, decl := 1, args := [1] }]
  mainLocals := [{ name := "x", type := 6, kind := .fixed }]

theorem nests_nestedPointers : nestedPointers.Nests 1 := by
  refine ⟨?_, _, rfl, _, List.mem_singleton_self _, 4, 3, 2, ?_, ?_, ?_, ?_⟩
  · show Template.aggregate 1 ∈ (TypeStore.ofProgram nestedPointers).templates
    decide +kernel
  · exact ⟨_, rfl, rfl, rfl⟩
  · exact ⟨_, rfl, rfl, rfl, rfl⟩
  · exact ⟨_, rfl, rfl, rfl⟩
  · exact ⟨_, rfl, rfl, rfl⟩

/-- The local of the main statements is an instance at a primitive. -/
theorem run_nestedPointers_ne_ok (limit : ℕ) (plan : Plan) :
    (run "" 0 limit).runFrom (ofProgram nestedPointers) ≠ (.ok plan, s) := by
  apply run_ne_ok_of_nests nests_nestedPointers (List.mem_singleton_self _) (t := 1)
  · exact ⟨_, rfl, rfl, rfl, rfl⟩
  · exact ⟨_, rfl, rfl, nofun⟩

end Scheduler

end WasmBackend
