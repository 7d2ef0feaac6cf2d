import WasmBackend.Proofs.Layout.Resolving
import WasmBackend.Proofs.Plan.Scheduling

/-!
# What a finished plan gives

Once scheduling has come to its end without an error and everything registered is laid out, the
store has a layout for every aggregate that a required type leads to, and each symbol made from
then on is that of a task.  Nothing here is about lowering; it is what lowering relies on.
-/

namespace WasmBackend.Scheduler

open Stage (Ensures)

variable {σ : Scheduler} {s s' : TypeStore} {h g : Handle} {t : ConcreteType} {x : TaskId} {n : Text}

/-- Scheduling has come to its end and reported no error. -/
structure Finished (σ : Scheduler) : Prop where
  explored : σ.Explored
  work : σ.work = []
  errors : σ.bag.hasErrors = false
  start : ∃ p, (TypeStore.ofProgram p).Keeps σ.store

/-- A later store, with a layout for every aggregate that is required. -/
structure Laid (σ : Scheduler) (s : TypeStore) : Prop where
  advances : σ.store.Advances s
  laidOut : ∀ h, σ.Requires h → σ.store.IsAggregate h → s.LaidOut h

theorem Laid.mono (hs : σ.Laid s) (hadv : s.Advances s') : σ.Laid s' where
  advances := hs.advances.trans hadv
  laidOut := fun h hh hagg ↦ hadv.laidOut (hs.laidOut h hh hagg)

/-- A run that comes to its end without an error finishes the plan. -/
theorem finished_of_run {p : Program} {bag : Bag} {tracer : Trace.Tracer} {entryExport : Text}
    {parent limit : Nat} {plan : Plan}
    (hrun : (run entryExport parent limit).runFrom (ofProgram p bag tracer) = (.ok plan, σ))
    (herrors : σ.bag.hasErrors = false) : σ.Finished := by
  obtain ⟨hexplored, hwork, -, -, -, -, hkeeps⟩ :=
    (ensures_run p bag tracer entryExport parent limit).of_eq hrun
  exact ⟨hexplored, hwork, herrors, p, hkeeps⟩

namespace Finished

theorem faithful (hσ : σ.Finished) : σ.store.Faithful :=
  hσ.explored.sound.faithful

/-- Resolving that leaves nothing over lays out what is required. -/
theorem laid (hσ : σ.Finished) {layouts : Layouts}
    (hrun : Layouts.resolve.runFrom σ.layouts = (.ok [], layouts)) : σ.Laid layouts.store := by
  obtain ⟨hsettles, hall⟩ := (Layouts.ensures_resolve hσ.faithful).of_eq hrun
  refine ⟨hsettles.store, fun h hh hagg ↦ ?_⟩
  have hlayout := hσ.explored.has_layout hh hagg
  obtain ⟨⟨k, hkind, hknown⟩, -⟩ : σ.CoversLayout h := hσ.explored.coversTask hσ.work hlayout
  obtain ⟨k', hkind', hk'⟩ := hagg
  cases hkind.symm.trans hkind'
  obtain hreg | hlaid := hknown hk'
  · exact (hall h hreg).resolve_left List.not_mem_nil
  · exact hsettles.store.laidOut hlaid

/-- The handle of a required type has been made. -/
theorem application? (hσ : σ.Finished) (hh : σ.Requires h) (hne : h ≠ 0) :
    ∃ a, σ.store.application? h = some a := by
  obtain ⟨a, ha, -⟩ := hσ.explored.settled h (hh.resolve_left hne)
  exact ⟨a, ha⟩

theorem kindOf (hσ : σ.Finished) (hh : σ.Requires h) : ∃ k, σ.store.kindOf h = .ok k := by
  by_cases hne : h = 0
  · exact ⟨.void, by simp [TypeStore.kindOf, hne]⟩
  · obtain ⟨a, ha⟩ := hσ.application? hh hne
    exact ⟨_, TypeStore.kindOf_eq ha⟩

/-- What a required type leads to in a later store is required as well. -/
theorem requires_of_leads (hσ : σ.Finished) (hkeeps : σ.store.Keeps s) (hh : σ.Requires h)
    (hleads : s.Leads h g) : σ.Requires g := by
  have made {a : Application} (ha : s.application? h = some a) :
      ∃ b, σ.store.application? h = some b ∧ a.template = b.template ∧ a.args = b.args := by
    obtain ⟨b, hb⟩ := hσ.application? hh (TypeStore.application?_eq_some.1 ha).1
    obtain ⟨a', ha', htemplate, hargs⟩ := hkeeps.application? hb
    cases ha.symm.trans ha'
    exact ⟨b, hb, htemplate, hargs⟩
  cases hleads with
  | pointer ha htemplate =>
    obtain ⟨b, hb, hsame, hargs⟩ := made ha
    have := hσ.explored.requires hσ.work hh (.pointer hb (hsame.symm.trans htemplate))
    simpa only [Application.elem, hsame, hargs] using this
  | function ha htemplate hg =>
    obtain ⟨b, hb, hsame, hargs⟩ := made ha
    refine hσ.explored.requires hσ.work hh (.function hb (hsame.symm.trans htemplate) ?_)
    simpa only [Application.params, Application.result, hsame, hargs] using hg
  | member hagg hf hg =>
    obtain ⟨a, ha, hagg⟩ := Option.map_eq_some_iff.1 hagg
    obtain ⟨b, hb, hsame, hargs⟩ := made ha
    have hdeclared : σ.store.declared? h = some (b.aggregate σ.store.program, b.args) :=
      Option.map_eq_some_iff.2 ⟨b, hb, rfl⟩
    have haggregate : a.aggregate s.program = b.aggregate σ.store.program := by
      simp only [Application.aggregate, hsame, hkeeps.program]
    obtain ⟨rfl, rfl⟩ := Prod.mk.inj hagg
    rw [haggregate] at hf
    -- the fields of an aggregate that is laid out have their types required
    have hlayout := hσ.explored.has_layout hh (TypeStore.isAggregate_of_field hdeclared hf)
    obtain ⟨-, agg, args, hdeclared', hfields⟩ : σ.CoversLayout h :=
      hσ.explored.coversTask hσ.work hlayout
    cases hdeclared.symm.trans hdeclared'
    obtain ⟨g', hg', hreq⟩ := hfields _ hf
    rw [hargs] at hg
    cases hg.symm.trans (hkeeps.denote hg')
    exact hreq

/-- The handle of the primitive for addresses stands for a primitive. -/
theorem kindOf_pointer (hσ : σ.Finished) (hs : σ.Laid s)
    (hh : s.handle? (primIdentity .pointer) [] = some h) : s.kindOf h = .ok .primitive := by
  obtain ⟨p, hp⟩ := hσ.start
  have hkeeps := hp.trans hs.advances.toKeeps
  have hregular : s.Regular := hkeeps.regular (by simp [TypeStore.Regular, TypeStore.ofProgram])
  have hfound : s.template? (primIdentity .pointer) = some (.prim .pointer) := by
    have hbuiltin : TypeStore.builtins.find?
        (fun t ↦ t.identity = primIdentity .pointer) = some (.prim .pointer) := by decide +kernel
    rw [hkeeps.template?]
    simp only [TypeStore.template?, TypeStore.ofProgram, List.find?_append, hbuiltin,
      Option.some_or]
  obtain ⟨i, hi, rfl⟩ := Option.map_eq_some_iff.1 hh
  obtain ⟨hlt, hfits, -⟩ := Array.findIdx?_eq_some_iff_getElem.1 hi
  have ha := Array.getElem?_eq_getElem hlt
  have hidentity : s.applications[i].template.identity = primIdentity .pointer :=
    (of_decide_eq_true hfits).1
  have htemplate := hregular i _ ha
  rw [hidentity, hfound] at htemplate
  have happ : s.application? (i + 1) = some s.applications[i] :=
    TypeStore.application?_eq_some.2 ⟨Nat.succ_ne_zero i, ha⟩
  rw [TypeStore.kindOf_eq happ, ← Option.some.inj htemplate]
  rfl

end Finished

/-! ## Types of required handles -/

/-- The type of a handle, as read off a store that is laid out. -/
def Ready (σ : Scheduler) (h : Handle) (t : ConcreteType) : Prop :=
  ∃ s, σ.Laid s ∧ s.type? h = some t

namespace Ready

theorem kind_eq (hσ : σ.Finished) (ht : σ.Ready h t) {k : TypeKind}
    (hk : σ.store.kindOf h = .ok k) : t.kind = k := by
  obtain ⟨s, hs, ht⟩ := ht
  have hkind := ((hs.advances.faithful hσ.faithful).kindOf ht).symm.trans (hs.advances.kindOf hk)
  exact Except.ok.inj hkind

theorem isResolved (hσ : σ.Finished) (hh : σ.Requires h) (ht : σ.Ready h t)
    (hagg : t.kind.isAggregate) : t.resolved := by
  obtain ⟨k, hk⟩ := hσ.kindOf hh
  have hkind := ht.kind_eq hσ hk
  obtain ⟨s, hs, ht⟩ := ht
  obtain ⟨t', ht', hres⟩ := hs.laidOut h hh ⟨k, hk, hkind ▸ hagg⟩
  cases ht.symm.trans ht'
  exact hres

theorem requires_elem (hσ : σ.Finished) (hh : σ.Requires h) (ht : σ.Ready h t) :
    σ.Requires t.elem := by
  obtain ⟨s, hs, ht⟩ := ht
  by_cases hne : t.elem = 0
  · exact .inl hne
  · exact hσ.requires_of_leads hs.advances.toKeeps hh
      ((hs.advances.faithful hσ.faithful).leads_elem ht hne)

theorem requires_part (hσ : σ.Finished) (hh : σ.Requires h) (ht : σ.Ready h t)
    (hg : g ∈ t.params ++ [t.result]) : σ.Requires g := by
  obtain ⟨s, hs, ht⟩ := ht
  by_cases hne : g = 0
  · exact .inl hne
  · exact hσ.requires_of_leads hs.advances.toKeeps hh
      ((hs.advances.faithful hσ.faithful).leads_part ht hg hne)

theorem requires_member (hσ : σ.Finished) (hh : σ.Requires h) (ht : σ.Ready h t) {m : Member}
    (hm : m ∈ t.members) : σ.Requires m.type := by
  obtain ⟨s, hs, ht⟩ := ht
  exact hσ.requires_of_leads hs.advances.toKeeps hh
    ((hs.advances.faithful hσ.faithful).leads_member ht hm)

theorem method_eq (hσ : σ.Finished) (ht : σ.Ready h t) {name : Text} {decl decl' : DeclId}
    (hdecl : σ.store.method? h name = some decl) (hfound : t.method? name = some decl') :
    decl' = decl := by
  obtain ⟨s, hs, ht⟩ := ht
  have hmethod := (hs.advances.faithful hσ.faithful).method? ht hfound
  exact Option.some.inj (hmethod.symm.trans (hs.advances.method? hdecl))

theorem operator_eq (hσ : σ.Finished) (ht : σ.Ready h t) {op : Operator} {decl decl' : DeclId}
    (hdecl : σ.store.operator? h op = some decl) (hfound : t.operator? op = some decl') :
    decl' = decl := by
  obtain ⟨s, hs, ht⟩ := ht
  have hoperator := (hs.advances.faithful hσ.faithful).operator? ht hfound
  exact Option.some.inj (hoperator.symm.trans (hs.advances.operator? hdecl))

theorem init_eq (hσ : σ.Finished) (ht : σ.Ready h t) {agg : AggregateData} {args : List Handle}
    (hagg : σ.store.declared? h = some (agg, args)) : t.init = agg.init := by
  obtain ⟨s, hs, ht⟩ := ht
  have hne : h ≠ 0 := by
    rintro rfl
    cases hagg
  obtain ⟨agg', hagg', hinit, -⟩ := (hs.advances.faithful hσ.faithful).declared? ht hne
  cases hagg'.symm.trans (hs.advances.declared? hagg)
  exact hinit.symm

end Ready

/-! ## Symbols of tasks -/

/-- Some task that gives code has the name, or it is that of the allocator and something
allocates. -/
def Callable (σ : Scheduler) (n : Text) : Prop :=
  (∃ t ∈ σ.tasks, t.emits ∧ t.name = n) ∨ (σ.needsAlloc ∧ n = allocFunction)

/-- The names of the tasks whose functions are used as values, each once. -/
def indirectNames (tasks : List Task) : List Text :=
  ((tasks.filter Task.indirect).map Task.name).eraseDups

/-- One more task puts its name behind the others if it is used as a value and new. -/
theorem indirectNames_concat (tasks : List Task) (t : Task) :
    indirectNames (tasks ++ [t]) =
      if t.indirect ∧ t.name ∉ indirectNames tasks then indirectNames tasks ++ [t.name]
      else indirectNames tasks := by
  unfold indirectNames
  simp only [List.mem_eraseDups, List.filter_append, List.map_append, List.eraseDups_append]
  by_cases ht : t.indirect
  · by_cases hmem : t.name ∈ (tasks.filter Task.indirect).map Task.name <;>
      simp [ht, hmem, List.removeAll, List.eraseDups_cons]
  · simp [ht]

/-- The names of the functions used as values in discovery order, each once. -/
def table (σ : Scheduler) : List Text :=
  indirectNames σ.tasks.toList

/-- The symbol that some later store makes for a task. -/
def Symbol (σ : Scheduler) (x : TaskId) (n : Text) : Prop :=
  ∃ s, σ.store.Extends s ∧ s.taskName? x = some n

theorem Finished.name_eq (hσ : σ.Finished) {i : Nat} {t : Task} (ht : σ.tasks[i]? = some t)
    (hn : σ.Symbol t.identity n) : t.name = n := by
  obtain ⟨s, hs, hn⟩ := hn
  exact Option.some.inj ((hs.taskName? (hσ.explored.sound.named i t ht)).symm.trans hn)

/-- The symbol of a task with code may be called. -/
theorem Finished.callable (hσ : σ.Finished) (hx : σ.Has x) (hkind : x.kind ≠ .layout)
    (hn : σ.Symbol x n) : σ.Callable n := by
  obtain ⟨i, t, ht, rfl⟩ := hx
  have hemits : t.emits := decide_eq_true hkind
  exact .inl ⟨t, Array.mem_of_getElem? ht, hemits, hσ.name_eq ht hn⟩

/-- The symbol of a task that is used as a value is in the table. -/
theorem Finished.mem_table (hσ : σ.Finished) (hx : σ.HasIndirect x) (hn : σ.Symbol x n) :
    n ∈ σ.table := by
  obtain ⟨i, t, ht, rfl, hindirect⟩ := hx
  obtain rfl := hσ.name_eq ht hn
  refine List.mem_eraseDups.2 (List.mem_map_of_mem ?_)
  exact List.mem_filter.2 ⟨Array.mem_toList_iff.2 (Array.mem_of_getElem? ht), hindirect⟩

/-! ## Trees whose references are there -/

/-- What every expression in a tree refers to is there. -/
def CoversExpr (σ : Scheduler) (scope : List Handle) (id : ExprId) : Prop :=
  ∀ j e, σ.store.program.OccursInExpr id j e → σ.Covers scope e

/-- What every expression in several statement trees refers to is there. -/
def CoversStmts (σ : Scheduler) (scope : List Handle) (ids : List StmtId) : Prop :=
  ∀ j e, σ.store.program.OccursInStmts ids j e → σ.Covers scope e

variable {scope : List Handle} {id child : ExprId} {e : Expr}

theorem CoversExpr.covers (hc : σ.CoversExpr scope id) (he : σ.store.program.expr? id = some e) :
    σ.Covers scope e :=
  hc id e ⟨.refl, he⟩

theorem CoversExpr.operand (hc : σ.CoversExpr scope id) (he : σ.store.program.expr? id = some e)
    (hchild : child ∈ e.x :: e.y :: e.args) : σ.CoversExpr scope child :=
  fun j e' ⟨hpath, he'⟩ ↦ hc j e' ⟨.head ⟨e, he, hchild⟩ hpath, he'⟩

theorem CoversExpr.left (hc : σ.CoversExpr scope id) (he : σ.store.program.expr? id = some e) :
    σ.CoversExpr scope e.x :=
  hc.operand he List.mem_cons_self

theorem CoversExpr.right (hc : σ.CoversExpr scope id) (he : σ.store.program.expr? id = some e) :
    σ.CoversExpr scope e.y :=
  hc.operand he (by simp)

theorem CoversExpr.arg (hc : σ.CoversExpr scope id) (he : σ.store.program.expr? id = some e)
    (hchild : child ∈ e.args) : σ.CoversExpr scope child :=
  hc.operand he (by simp [hchild])

/-- The type of an expression in the tree is required. -/
theorem CoversExpr.requiresType (hc : σ.CoversExpr scope id)
    (he : σ.store.program.expr? id = some e) : σ.RequiresType e.type scope :=
  (hc.covers he).1

variable {ids : List StmtId} {st : Stmt} {sid : StmtId}

theorem CoversStmts.expr (hc : σ.CoversStmts scope ids) (hid : sid ∈ ids)
    (hst : σ.store.program.stmt? sid = some st) : σ.CoversExpr scope st.expr :=
  fun j e he ↦ hc j e ⟨sid, hid, sid, st, .refl, hst, .inr he⟩

theorem CoversStmts.target (hc : σ.CoversStmts scope ids) (hid : sid ∈ ids)
    (hst : σ.store.program.stmt? sid = some st) : σ.CoversExpr scope st.target :=
  fun j e he ↦ hc j e ⟨sid, hid, sid, st, .refl, hst, .inl he⟩

theorem CoversStmts.nested (hc : σ.CoversStmts scope ids) (hid : sid ∈ ids)
    (hst : σ.store.program.stmt? sid = some st) {inner : List StmtId}
    (hinner : inner ⊆ st.body ++ st.otherwise) : σ.CoversStmts scope inner := by
  rintro j e ⟨root, hroot, k, s, hpath, hs, he⟩
  exact hc j e ⟨sid, hid, k, s, .head ⟨st, hst, hinner hroot⟩ hpath, hs, he⟩

end WasmBackend.Scheduler
