import WasmBackend.Proofs.Plan.Following

/-!
# What the tasks of a plan are

A task that has been followed has everything it refers to among the tasks.  When the work list is
empty every task has been followed, so the tasks are exactly those that the program needs.
-/

namespace WasmBackend.Scheduler

open Stage (Ensures Meets)
open Relation (ReflTransGen)

variable {s s' s'' : Scheduler}

/-- What a function asks for under a scope is there, and the types it mentions are required. -/
structure CoversFunction (s : Scheduler) (owner : Handle) (f : FunctionData) (σ : List Handle) :
    Prop where
  required : s.Requires owner
  result : s.RequiresType f.result σ
  locals : ∀ l ∈ f.locals, s.RequiresType l.type σ
  self : f.kind = .constructor → ∃ k, s.store.kindOf owner = .ok k ∧ (k = .cls → s.needsAlloc)
  body : f.hasBody → ∀ id e, s.store.program.OccursInStmts f.body id e → s.Covers σ e

/-- What the entry asks for is there, and the types it mentions are required. -/
structure CoversEntry (s : Scheduler) : Prop where
  globals : ∀ decl d, (decl, d) ∈ s.store.program.numberedDecls → d.kind = .global →
    ∃ g, d.global = some g ∧ s.RequiresType g.type [] ∧
      ∀ id e, s.store.program.OccursInExpr g.init id e → s.Covers [] e
  locals : ∀ l ∈ s.store.program.mainLocals, s.RequiresType l.type []
  main : ∀ id e, s.store.program.OccursInStmts s.store.program.main id e → s.Covers [] e

/-- The aggregate is known to the layouts, and the types of its members are required. -/
def CoversLayout (s : Scheduler) (owner : Handle) : Prop :=
  s.layouts.Known owner ∧ ∃ agg args, s.store.declared? owner = some (agg, args) ∧
    ∀ f ∈ agg.fields, s.RequiresType f.type args

/-- What a task asks for is there, and the types it mentions are required. -/
def CoversTask (s : Scheduler) (x : TaskId) : Prop :=
  match x.kind with
  | .layout => s.CoversLayout x.owner
  | .entry => s.CoversEntry
  | .function | .method | .operator | .constructor =>
    ∃ f σ, s.store.function? x = some f ∧ s.store.scope? x = some σ ∧ s.CoversFunction x.owner f σ

theorem Grows.coversFunction (hg : s.Grows s') {owner : Handle} {f : FunctionData} {σ : List Handle}
    (hc : s.CoversFunction owner f σ) : s'.CoversFunction owner f σ where
  required := hg.requires hc.required
  result := hg.requiresType hc.result
  locals := fun l hl ↦ hg.requiresType (hc.locals l hl)
  self := by
    intro hkind
    obtain ⟨k, hk, halloc⟩ := hc.self hkind
    exact ⟨k, hg.store.kindOf hk, hg.needsAlloc ∘ halloc⟩
  body := by
    rw [hg.store.program]
    exact fun hbody id e he ↦ hg.covers (hc.body hbody id e he)

theorem Grows.coversEntry (hg : s.Grows s') (hc : s.CoversEntry) : s'.CoversEntry := by
  constructor <;> rw [hg.store.program]
  · intro decl d hd hkind
    obtain ⟨g, hglobal, htype, hinit⟩ := hc.globals decl d hd hkind
    exact ⟨g, hglobal, hg.requiresType htype, fun id e he ↦ hg.covers (hinit id e he)⟩
  · exact fun l hl ↦ hg.requiresType (hc.locals l hl)
  · exact fun id e he ↦ hg.covers (hc.main id e he)

theorem Grows.coversLayout (hg : s.Grows s') {owner : Handle} (hc : s.CoversLayout owner) :
    s'.CoversLayout owner := by
  obtain ⟨hknown, agg, args, hagg, hfields⟩ := hc
  exact ⟨hg.layouts.known hknown, agg, args, hg.store.declared? hagg,
    fun f hf ↦ hg.requiresType (hfields f hf)⟩

theorem Grows.coversTask (hg : s.Grows s') {x : TaskId} (hc : s.CoversTask x) : s'.CoversTask x := by
  unfold CoversTask at *
  cases hk : x.kind <;> rw [hk] at hc
  case layout => exact hg.coversLayout hc
  case entry => exact hg.coversEntry hc
  case function | method | operator | constructor =>
    obtain ⟨f, σ, hf, hσ, hc⟩ := hc
    exact ⟨f, σ, (hg.store.function? x).trans hf, hg.store.scope? hσ, hg.coversFunction hc⟩

/-- What a task with a function asks for is there. -/
theorem CoversTask.function {x : TaskId} (hc : s.CoversTask x) (hlayout : x.kind ≠ .layout)
    (hentry : x.kind ≠ .entry) :
    ∃ f σ, s.store.function? x = some f ∧ s.store.scope? x = some σ ∧
      s.CoversFunction x.owner f σ := by
  unfold CoversTask at hc
  cases hkind : x.kind <;> rw [hkind] at hc
  case layout => exact absurd hkind hlayout
  case entry => exact absurd hkind hentry
  case function | method | operator | constructor => exact hc

theorem CoversTask.coversFunction {x : TaskId} {f : FunctionData} {σ : List Handle}
    (hc : s.CoversTask x) (hf : s.store.function? x = some f) (hσ : s.store.scope? x = some σ) :
    s.CoversFunction x.owner f σ := by
  have hkind : x.kind ≠ .layout ∧ x.kind ≠ .entry := by
    constructor <;> intro hkind <;> simp [TypeStore.function?, hkind] at hf
  obtain ⟨f', σ', hf', hσ', hc⟩ := hc.function hkind.1 hkind.2
  cases hf.symm.trans hf'
  cases hσ.symm.trans hσ'
  exact hc

/-! ## Following a task -/

theorem ensures_followLayout (hs : s.Sound) {x : TaskId}
    (hx : s.store.Reached s.store.Mentions x) (hkind : x.kind = .layout) :
    Ensures (followLayout x.owner) s fun _ s' ↦ s.Follows s' ∧ s'.CoversLayout x.owner := by
  unfold followLayout
  rw [Ensures, Stage.meets_bind, meets_onLayouts]
  refine (Layouts.ensures_add x.owner).imp ?_
  rintro _ layouts ⟨hgrows, hknown⟩
  have hf₁ := follows_layouts hs hgrows
  rw [Stage.meets_bind]
  refine (ensures_getType hf₁.sound x.owner).imp ?_
  rintro t s₂ ⟨hf₂, ht⟩
  have hf₁₂ := hf₁.trans hf₂
  have hx₂ := hf₁₂.store.reached hx
  have howner : x.owner ≠ 0 := by
    obtain ⟨k, hk, hagg⟩ := hx₂.isAggregate hkind
    rintro h0
    rw [h0] at hk
    cases hk
    cases hagg
  obtain ⟨agg, hagg, -, -, -, hmembers⟩ := hf₂.sound.faithful.declared? ht howner
  have hwanted (m : Member) (hm : m ∈ t.members) : s₂.Wanted m.type :=
    ⟨x, x.owner, hx₂, .code .owner, .single (hf₂.sound.faithful.leads_member ht hm)⟩
  rw [Stage.meets_bind]
  refine (Stage.meets_forIn (fun done _ s' ↦ s₂.Follows s' ∧
    ∀ m : Member, m ∈ done → s'.Requires m.type)
    ⟨.refl hf₂.sound, by simp⟩ ?_).imp ?_
  · rintro done m rest _ s₃ hsplit ⟨hf₃, hdone⟩
    rw [Stage.meets_bind]
    refine (ensures_require hf₃.sound fun _ ↦
      hf₃.wanted (hwanted m (by rw [hsplit]; simp))).imp ?_
    rintro _ s₄ ⟨hf₄, hreq⟩
    refine ⟨_, rfl, hf₃.trans hf₄, fun m' hm' ↦ ?_⟩
    obtain hm' | hm' := List.mem_append.1 hm'
    · exact hf₄.requires (hdone m' hm')
    · obtain rfl := List.mem_singleton.1 hm'
      exact hreq
  · rintro _ s₃ ⟨hf₃, hreq⟩
    refine ⟨hf₁₂.trans hf₃, ?_⟩
    refine ⟨(hf₂.trans hf₃).layouts.known hknown, agg, t.args, hf₃.store.declared? hagg,
      fun f hf ↦ ?_⟩
    obtain ⟨i, hi, rfl⟩ := List.mem_iff_getElem.1 hf
    have hi' : i < t.members.length := hmembers.length_eq ▸ hi
    exact ⟨_, hf₃.store.denote (hmembers.get hi hi').2, hreq _ (List.getElem_mem hi')⟩

/-- Following the types of several things one after the other. -/
theorem ensures_requireTypes {α : Type} (hs : s.Sound) {x : TaskId} (σ : List Handle) {l : List α}
    (type : α → TypeId) (hx : s.store.Reached s.store.Mentions x)
    (hm : ∀ a ∈ l, ∀ store h, s.store.Keeps store → store.denote (type a) σ = some h →
      store.Mentions x h) :
    Ensures
      (forIn l PUnit.unit fun a _ ↦ do
        requireType σ (type a)
        pure (.yield PUnit.unit)) s fun _ s' ↦
      s.Follows s' ∧ ∀ a ∈ l, s'.RequiresType (type a) σ := by
  refine Stage.meets_forIn (fun done _ s' ↦ s.Follows s' ∧ ∀ a ∈ done, s'.RequiresType (type a) σ)
    ⟨.refl hs, by simp⟩ ?_
  rintro done a rest _ s₁ hsplit ⟨hf₁, hdone⟩
  rw [Stage.meets_bind]
  refine (ensures_requireType hf₁.sound (hf₁.store.reached hx) fun store h hk ↦
    hm a (by rw [hsplit]; simp) store h (hf₁.store.toKeeps.trans hk)).imp ?_
  rintro _ s₂ ⟨hf₂, hreq⟩
  refine ⟨_, rfl, hf₁.trans hf₂, fun a' ha' ↦ ?_⟩
  obtain ha' | ha' := List.mem_append.1 ha'
  · exact hf₂.requiresType (hdone a' ha')
  · obtain rfl := List.mem_singleton.1 ha'
    exact hreq

theorem ensures_followGlobal (hs : s.Sound) {decl : DeclId} {d : Decl}
    (hx : s.store.Reached s.store.Mentions .entry)
    (hd : (decl, d) ∈ s.store.program.numberedDecls) :
    Ensures (followGlobal d) s fun _ s' ↦ s.Follows s' ∧ (d.kind = .global →
      ∃ g, d.global = some g ∧ s'.RequiresType g.type [] ∧
        ∀ id e, s'.store.program.OccursInExpr g.init id e → s'.Covers [] e) := by
  unfold followGlobal
  by_cases hkind : d.kind = .global
  swap
  · simp [hkind, Follows.refl hs]
  cases hg : d.global with
  | none => simp [hkind, Stage.some!]
  | some g =>
    simp only [hkind, not_true_eq_false, if_false, Stage.some!, Ensures, Stage.meets_bind,
      Stage.meets_pure, ne_eq]
    refine (ensures_requireType hs hx fun store h hk hh ↦
      .global rfl (by rw [hk.program]; exact hd) hkind hg hh).imp ?_
    rintro _ s₁ ⟨hf₁, htype⟩
    rw [Stage.meets_get]
    have hprogram : s₁.program = s.store.program := hf₁.store.program
    refine (ensures_followWalk hf₁.sound (hf₁.store.reached hx) rfl fun hended id e he ↦ ?_).imp ?_
    · refine .init (by rw [hf₁.store.program]; exact hd) hkind hg ?_
      exact (Program.mem_visitExpr hended).1 he
    · rintro _ s₂ ⟨hf₂, hended, hcovers⟩
      refine ⟨hf₁.trans hf₂, fun _ ↦ ⟨g, rfl, hf₂.requiresType htype, fun id e he ↦ ?_⟩⟩
      rw [hf₂.store.program] at he
      exact hcovers id e ((Program.mem_visitExpr hended).2 he)

theorem ensures_followEntry (hs : s.Sound) (hx : s.store.Reached s.store.Mentions .entry) :
    Ensures followEntry s fun _ s' ↦ s.Follows s' ∧ s'.CoversEntry := by
  unfold followEntry
  simp only [Ensures, Stage.meets_bind, Stage.meets_get]
  refine (Stage.meets_forIn (fun done _ s' ↦ s.Follows s' ∧ ∀ (decl : DeclId) (d : Decl),
    (decl, d) ∈ done → d.kind = .global → ∃ g, d.global = some g ∧ s'.RequiresType g.type [] ∧
      ∀ id e, s'.store.program.OccursInExpr g.init id e → s'.Covers [] e)
    ⟨.refl hs, fun _ _ h ↦ absurd h List.not_mem_nil⟩ ?_).imp ?_
  · rintro done ⟨decl, d⟩ rest _ s₁ hsplit ⟨hf₁, hdone⟩
    have hd : (decl, d) ∈ s₁.store.program.numberedDecls := by
      rw [hf₁.store.program]
      show _ ∈ s.program.numberedDecls
      rw [hsplit]
      simp
    rw [Stage.meets_bind]
    refine (ensures_followGlobal hf₁.sound (hf₁.store.reached hx) hd).imp ?_
    rintro _ s₂ ⟨hf₂, hglobal⟩
    refine ⟨_, rfl, hf₁.trans hf₂, fun decl' d' hd' hkind' ↦ ?_⟩
    obtain hd' | hd' := List.mem_append.1 hd'
    · obtain ⟨g, hg, htype, hinit⟩ := hdone decl' d' hd' hkind'
      refine ⟨g, hg, hf₂.requiresType htype, fun id e he ↦ hf₂.covers (hinit id e ?_)⟩
      rwa [← hf₂.store.program]
    · obtain ⟨rfl, rfl⟩ := Prod.mk.inj (List.mem_singleton.1 hd')
      exact hglobal hkind'
  rintro _ s₁ ⟨hf₁, hglobals⟩
  refine (ensures_requireTypes hf₁.sound [] Local.type (hf₁.store.reached hx) fun l hl store h hk hh ↦ ?_).imp ?_
  · refine .code (.mainLocal rfl ?_ hh)
    rw [hk.program, hf₁.store.program]
    exact hl
  rintro _ s₂ ⟨hf₂, hlocals⟩
  have hf₁₂ := hf₁.trans hf₂
  refine (ensures_followWalk hf₂.sound (x := .entry) (σ := []) (hf₁₂.store.reached hx) rfl
    fun hended id e he ↦ .main ?_).imp ?_
  · rw [hf₁₂.store.program]
    exact (Program.mem_visitStmts hended).1 he
  rintro _ s₃ ⟨hf₃, hended, hcovers⟩
  have hf₁₃ := hf₁₂.trans hf₃
  refine ⟨hf₁₃, ⟨?_, ?_, ?_⟩⟩
  · intro decl d hd hkind'
    rw [hf₁₃.store.program] at hd
    obtain ⟨g, hg, htype, hinit⟩ := hglobals decl d hd hkind'
    have hf₂₃ := hf₂.trans hf₃
    refine ⟨g, hg, hf₂₃.requiresType htype, fun id e he ↦ hf₂₃.covers (hinit id e ?_)⟩
    rwa [← hf₂₃.store.program]
  · intro l hl
    rw [hf₁₃.store.program] at hl
    exact hf₃.requiresType (hlocals l hl)
  · intro id e he
    rw [hf₁₃.store.program] at he
    exact hcovers id e ((Program.mem_visitStmts hended).2 he)

/-- The scope a task computes is the one its identity has. -/
theorem scope_eq {store : TypeStore} {t : Task} {σ : List Handle}
    (hσ : store.scope? t.identity = some σ) : t.scope store = σ := by
  have hkind : TaskId.kind t.identity = t.kind := rfl
  unfold TypeStore.scope? at hσ
  unfold Task.scope TypeStore.argsOf
  rw [hkind] at hσ
  cases hk : t.kind <;> simp only [hk] at hσ ⊢
  case method | operator | constructor =>
    show Option.getD ((store.application? (TaskId.owner t.identity)).map _) [] = σ
    rw [hσ]
    rfl
  case function | layout | entry => exact Option.some.inj hσ

/-- The function of a task is that of its declaration. -/
theorem function_eq {store : TypeStore} {t : Task} {f : FunctionData}
    (hf : store.function? t.identity = some f) :
    (store.program.decl? t.decl).bind Decl.function = some f := by
  have hkind : TaskId.kind t.identity = t.kind := rfl
  unfold TypeStore.function? at hf
  rw [hkind] at hf
  cases hk : t.kind <;> rw [hk] at hf
  case layout | entry => cases hf
  case function | method | operator | constructor => exact hf

theorem ensures_followSelf (hs : s.Sound) (f : FunctionData) (owner : Handle) :
    Ensures (followSelf f owner) s fun _ s' ↦ s.Follows s' ∧ (f.kind = .constructor →
      ∃ k, s'.store.kindOf owner = .ok k ∧ (k = .cls → s'.needsAlloc)) := by
  unfold followSelf
  by_cases hf : f.kind = .constructor
  swap
  · simp [hf, Follows.refl hs]
  simp only [hf, ne_eq, not_true_eq_false, if_false, Ensures, Stage.meets_bind, Stage.meets_get,
    Stage.meets_ofExcept]
  cases hk : s.layouts.store.kindOf owner with
  | error e => trivial
  | ok k =>
    refine Stage.meets_ite.2 ⟨fun _ ↦ ?_, fun hcls ↦ ?_⟩
    · exact ⟨follows_alloc hs, fun _ ↦ ⟨k, hk, fun _ ↦ rfl⟩⟩
    · exact ⟨.refl hs, fun _ ↦ ⟨k, hk, fun h ↦ absurd h hcls⟩⟩

theorem ensures_followFunction (hs : s.Sound) {t : Task} {σ : List Handle}
    (hx : s.store.Reached s.store.Mentions t.identity) (hσ : s.store.scope? t.identity = some σ)
    (hfunction : s.store.function? t.identity = (s.program.decl? t.decl).bind Decl.function) :
    Ensures (followFunction t) s fun _ s' ↦ s.Follows s' ∧
      ∃ f, s'.store.function? t.identity = some f ∧ s'.CoversFunction t.owner f σ := by
  unfold followFunction
  simp only [Ensures, Stage.meets_bind, Stage.meets_get, ← hfunction]
  cases hf : s.store.function? t.identity with
  | none => trivial
  | some f =>
    simp only [Stage.meets_bind, Stage.meets_get, scope_eq hσ]
    have howner : s.Wanted t.owner := ⟨t.identity, t.owner, hx, .code .owner, .refl⟩
    refine (ensures_require hs fun _ ↦ howner).imp ?_
    rintro _ s₁ ⟨hf₁, hrequired⟩
    refine (ensures_requireType hf₁.sound (hf₁.store.reached hx) fun store h hk hh ↦
      .code (.result (hk.scope? (hf₁.store.scope? hσ)) ?_ hh)).imp ?_
    · rw [hk.function?, hf₁.store.function?, hf]
    rintro _ s₂ ⟨hf₂, hresult⟩
    have hf₁₂ := hf₁.trans hf₂
    refine (ensures_requireTypes hf₂.sound _ Local.type (hf₁₂.store.reached hx)
      fun l hl store h hk hh ↦
        .code (.loc (hk.scope? (hf₁₂.store.scope? hσ)) ?_ hl hh)).imp ?_
    · rw [hk.function?, hf₁₂.store.function?, hf]
    rintro _ s₃ ⟨hf₃, hlocals⟩
    refine (ensures_followSelf hf₃.sound f t.owner).imp ?_
    rintro _ s₄ ⟨hf₄, hself⟩
    have hf₁₄ := (hf₁₂.trans hf₃).trans hf₄
    have hcovers : f.hasBody = false → s₄.CoversFunction t.owner f σ := fun hnone ↦
      { required := ((hf₂.trans hf₃).trans hf₄).requires hrequired
        result := (hf₃.trans hf₄).requiresType hresult
        locals := fun l hl ↦ hf₄.requiresType (hlocals l hl)
        self := hself
        body := fun h ↦ by simp [hnone] at h }
    have hfun {s' : Scheduler} (hf' : s.Follows s') : s'.store.function? t.identity = some f :=
      (hf'.store.function? _).trans hf
    refine Stage.meets_ite.2 ⟨fun hbody ↦ ?_, fun hbody ↦
      ⟨hf₁₄, f, hfun hf₁₄, hcovers (by simpa using hbody)⟩⟩
    refine (ensures_followWalk hf₄.sound (hf₁₄.store.reached hx) (hf₁₄.store.scope? hσ)
      fun hended id e he ↦ .body (hfun hf₁₄) hbody ?_).imp ?_
    · rw [hf₁₄.store.program]
      exact (Program.mem_visitStmts hended).1 he
    rintro _ s₅ ⟨hf₅, hended, hall⟩
    have hf₁₅ := hf₁₄.trans hf₅
    refine ⟨hf₁₅, f, hfun hf₁₅, ?_⟩
    exact
      { required := (((hf₂.trans hf₃).trans hf₄).trans hf₅).requires hrequired
        result := ((hf₃.trans hf₄).trans hf₅).requiresType hresult
        locals := fun l hl ↦ (hf₄.trans hf₅).requiresType (hlocals l hl)
        self := fun h ↦ by
          obtain ⟨k, hk, halloc⟩ := hself h
          exact ⟨k, hf₅.store.kindOf hk, hf₅.needsAlloc ∘ halloc⟩
        body := fun _ id e he ↦ by
          rw [hf₁₅.store.program] at he
          exact hall id e ((Program.mem_visitStmts hended).2 he) }

/-- Following a task that the program needs brings in everything the task asks for. -/
theorem ensures_follow (hs : s.Sound) {t : Task}
    (hx : s.store.Reached s.store.Mentions t.identity) :
    Ensures (follow t) s fun _ s' ↦ s.Follows s' ∧ s'.CoversTask t.identity := by
  obtain ⟨σ, hσ⟩ := hx.scope?
  have hkind : TaskId.kind t.identity = t.kind := rfl
  have hfunction (hk : t.kind ≠ .layout ∧ t.kind ≠ .entry) :
      s.store.function? t.identity = (s.program.decl? t.decl).bind Decl.function := by
    unfold TypeStore.function?
    rw [hkind]
    cases ht : t.kind <;> simp_all [TaskId.decl, Task.identity, program]
  have function (hk : t.kind ≠ .layout ∧ t.kind ≠ .entry) :
      Ensures (followFunction t) s fun _ s' ↦ s.Follows s' ∧ ∃ f σ,
        s'.store.function? t.identity = some f ∧ s'.store.scope? t.identity = some σ ∧
          s'.CoversFunction t.owner f σ := by
    refine (ensures_followFunction hs hx hσ (hfunction hk)).imp ?_
    rintro _ s' ⟨hf, f, hfun, hcovers⟩
    exact ⟨hf, f, σ, hfun, hf.store.scope? hσ, hcovers⟩
  unfold follow
  cases hk : t.kind with
  | layout =>
    refine (ensures_followLayout hs hx hk).imp fun _ s' h ↦ ⟨h.1, ?_⟩
    unfold CoversTask
    rw [hkind, hk]
    exact h.2
  | entry =>
    refine (ensures_followEntry hs (hx.eq_entry hk ▸ hx)).imp fun _ s' h ↦ ⟨h.1, ?_⟩
    unfold CoversTask
    rw [hkind, hk]
    exact h.2
  | function | method | operator | constructor =>
    refine (function ⟨by simp [hk], by simp [hk]⟩).imp fun _ s' h ↦ ⟨h.1, ?_⟩
    unfold CoversTask
    rw [hkind, hk]
    exact h.2

end WasmBackend.Scheduler
