import WasmBackend.Plan.Schedule
import WasmBackend.Proofs.Layout.Resolving
import WasmBackend.Proofs.Plan.Reachable

/-!
# Following a task

While a task is followed the scheduler only gets more: tasks, types that are required, handles.
Every new task is one that the program needs, and every type that is newly required has the layouts
and types behind it required as well.  What an expression or a task refers to is there once it has
been followed, and stays there.
-/

namespace WasmBackend

open Stage (Ensures Meets)
open Relation (ReflTransGen)

/-- The symbol of a task, if the types it is named after are built. -/
def TypeStore.taskName? (s : TypeStore) (x : TaskId) : Option Text :=
  match x.kind with
  | .entry => some entryFunction
  | .layout => s.nameOf? x.owner
  | .function => s.functionName? x.decl x.args
  | .method | .operator | .constructor => s.memberName? x.owner x.decl

theorem TypeStore.Extends.taskName? {s s' : TypeStore} (hext : s.Extends s') {x : TaskId} {n : Text}
    (hn : s.taskName? x = some n) : s'.taskName? x = some n := by
  unfold TypeStore.taskName? at *
  cases hkind : x.kind <;> rw [hkind] at hn
  case entry => exact hn
  case layout => exact hext.nameOf? hn
  case function => exact hext.functionName? hn
  case method | operator | constructor => exact hext.memberName? hn

/-- Reporting never makes an error go away. -/
theorem Bag.hasErrors_add {b : Bag} (d : Diagnostic) (hb : b.hasErrors) : (b.add d).hasErrors := by
  unfold add
  unfold hasErrors at *
  split
  · simp
  · rw [Bool.or_eq_true] at hb ⊢
    rw [List.any_append, Bool.or_eq_true]
    exact hb.imp_right .inl

/-- An error that is reported counts, whether or not the bag is full. -/
theorem Bag.hasErrors_add_error {b : Bag} {code : Code} {span : Span} {message : Text}
    {notes : List Note} : (b.add (.error code span message notes)).hasErrors := by
  unfold add hasErrors
  split
  · simp
  · simp [Diagnostic.error]

namespace Scheduler

variable {s s' s'' : Scheduler}

/-- The store of types. -/
abbrev store (s : Scheduler) : TypeStore := s.layouts.store

def Has (s : Scheduler) (x : TaskId) : Prop :=
  ∃ (i : Nat) (t : Task), s.tasks[i]? = some t ∧ t.identity = x

/-- The task is there and known to be used as a value. -/
def HasIndirect (s : Scheduler) (x : TaskId) : Prop :=
  ∃ (i : Nat) (t : Task), s.tasks[i]? = some t ∧ t.identity = x ∧ t.indirect

/-- The type has been followed, or is being followed further up. -/
def Requires (s : Scheduler) (h : Handle) : Prop :=
  h = 0 ∨ h ∈ s.required

/-- What is behind a type has been followed: aggregates have a layout task, and of a pointer or a
function type the parts are required. -/
def Settled (s : Scheduler) (h : Handle) : Prop :=
  ∃ a, s.store.application? h = some a ∧
    ((a.template.kind s.store.program).isAggregate → s.Has (.layout h)) ∧
    (a.template = .pointer → s.Requires a.elem) ∧
    (a.template = .function → ∀ g ∈ a.params ++ [a.result], s.Requires g)

/-- What holds of the tasks found so far. -/
structure Sound (s : Scheduler) : Prop where
  faithful : s.store.Faithful
  unique : ∀ (i j : Nat) (t u : Task), s.tasks[i]? = some t → s.tasks[j]? = some u →
    t.identity = u.identity → i = j
  reached : ∀ (i : Nat) (t : Task), s.tasks[i]? = some t →
    s.store.Reached s.store.Mentions t.identity
  indirect : ∀ (i : Nat) (t : Task), s.tasks[i]? = some t → t.indirect →
    ∃ x, s.store.Reached s.store.Mentions x ∧ s.store.RefersByValue x t.identity
  named : ∀ (i : Nat) (t : Task), s.tasks[i]? = some t →
    s.store.taskName? t.identity = some t.name
  laid : ∀ (i : Nat) (t : Task), s.tasks[i]? = some t → t.kind = .layout → t.owner ∈ s.required
  rejected : s.badDecls ≠ [] → s.bag.hasErrors

/-- The same scheduler later on. -/
structure Grows (s s' : Scheduler) : Prop where
  layouts : s.layouts.Grows s'.layouts
  tasks : ∀ (i : Nat) (t : Task), s.tasks[i]? = some t →
    ∃ t', s'.tasks[i]? = some t' ∧ t'.identity = t.identity ∧ (t.indirect → t'.indirect)
  required : s.required ⊆ s'.required
  needsAlloc : s.needsAlloc → s'.needsAlloc
  errors : s.bag.hasErrors → s'.bag.hasErrors

theorem Grows.refl (s : Scheduler) : s.Grows s where
  layouts := .refl _
  tasks := fun _ t ht ↦ ⟨t, ht, rfl, id⟩
  required := fun _ h ↦ h
  needsAlloc := id
  errors := id

theorem Grows.trans (h₁ : s.Grows s') (h₂ : s'.Grows s'') : s.Grows s'' where
  layouts := h₁.layouts.trans h₂.layouts
  tasks := by
    intro i t ht
    obtain ⟨t', ht', hid', hindirect'⟩ := h₁.tasks i t ht
    obtain ⟨t'', ht'', hid'', hindirect''⟩ := h₂.tasks i t' ht'
    exact ⟨t'', ht'', hid''.trans hid', hindirect'' ∘ hindirect'⟩
  required := fun _ h ↦ h₂.required (h₁.required h)
  needsAlloc := h₂.needsAlloc ∘ h₁.needsAlloc
  errors := h₂.errors ∘ h₁.errors

theorem Grows.store (hg : s.Grows s') : s.store.Advances s'.store :=
  hg.layouts.store

theorem Grows.has (hg : s.Grows s') {x : TaskId} (hx : s.Has x) : s'.Has x := by
  obtain ⟨i, t, ht, rfl⟩ := hx
  obtain ⟨t', ht', hid, -⟩ := hg.tasks i t ht
  exact ⟨i, t', ht', hid⟩

theorem Grows.hasIndirect (hg : s.Grows s') {x : TaskId} (hx : s.HasIndirect x) :
    s'.HasIndirect x := by
  obtain ⟨i, t, ht, rfl, hindirect⟩ := hx
  obtain ⟨t', ht', hid, hindirect'⟩ := hg.tasks i t ht
  exact ⟨i, t', ht', hid, hindirect' hindirect⟩

theorem Grows.requires (hg : s.Grows s') {h : Handle} (hh : s.Requires h) : s'.Requires h :=
  hh.imp_right fun h ↦ hg.required h

theorem Grows.settled (hg : s.Grows s') {h : Handle} (hh : s.Settled h) : s'.Settled h := by
  obtain ⟨a, ha, hagg, hpointer, hfunction⟩ := hh
  obtain ⟨a', ha', htemplate, hargs⟩ := hg.store.application? ha
  refine ⟨a', ha', ?_, ?_, ?_⟩
  · rw [htemplate, hg.store.program]
    exact fun h ↦ hg.has (hagg h)
  · simp only [Application.elem, htemplate, hargs] at hpointer ⊢
    exact fun h ↦ hg.requires (hpointer h)
  · simp only [Application.params, Application.result, htemplate, hargs] at hfunction ⊢
    exact fun h g hmem ↦ hg.requires (hfunction h g hmem)

/-- Following part of a task: what is new is sound, new tasks wait to be followed, each once, and
nothing is left open behind a type that is newly required. -/
structure Follows (s s' : Scheduler) : Prop extends s.Grows s' where
  sound : s'.Sound
  work : s.work ⊆ s'.work
  fresh : ∀ i, s.tasks.size ≤ i → i < s'.tasks.size → i ∈ s'.work
  closes : ∀ h ∈ s'.required, h ∉ s.required → s'.Settled h
  counted : s'.tasks.size + s.work.length = s.tasks.size + s'.work.length

/-- A step that leaves the tasks and the required types alone. -/
theorem Grows.follows (hg : s.Grows s') (hs : s'.Sound) (htasks : s'.tasks = s.tasks)
    (hwork : s'.work = s.work) (hrequired : s'.required = s.required) : s.Follows s' where
  toGrows := hg
  sound := hs
  work := by rw [hwork]; exact fun _ h ↦ h
  fresh := by
    intro i hi hi'
    rw [htasks] at hi'
    omega
  closes := by
    intro h hh hnew
    rw [hrequired] at hh
    exact absurd hh hnew
  counted := by rw [htasks, hwork]

theorem Follows.refl (hs : s.Sound) : s.Follows s :=
  (Grows.refl s).follows hs rfl rfl rfl

theorem Follows.trans (h₁ : s.Follows s') (h₂ : s'.Follows s'') : s.Follows s'' where
  toGrows := h₁.toGrows.trans h₂.toGrows
  sound := h₂.sound
  work := fun _ h ↦ h₂.work (h₁.work h)
  fresh := by
    intro i hi hi''
    by_cases hi' : i < s'.tasks.size
    · exact h₂.work (h₁.fresh i hi hi')
    · exact h₂.fresh i (Nat.not_lt.1 hi') hi''
  closes := by
    intro h hh hnew
    by_cases hh' : h ∈ s'.required
    · exact h₂.settled (h₁.closes h hh' hnew)
    · exact h₂.closes h hh hh'
  counted := by
    have hcounted₁ := h₁.counted
    have hcounted₂ := h₂.counted
    omega

/-! ## Steps that change one part of the state -/

theorem Sound.withLayouts (hs : s.Sound) {layouts : Layouts}
    (hadv : s.store.Advances layouts.store) : Sound { s with layouts := layouts } where
  faithful := hadv.faithful hs.faithful
  unique := hs.unique
  reached := fun i t ht ↦ hadv.reached (hs.reached i t ht)
  indirect := by
    intro i t ht hindirect
    obtain ⟨x, hx, hrefers⟩ := hs.indirect i t ht hindirect
    exact ⟨x, hadv.reached hx, hadv.refersByValue hrefers⟩
  named := fun i t ht ↦ hadv.taskName? (hs.named i t ht)
  laid := hs.laid
  rejected := hs.rejected

theorem follows_layouts (hs : s.Sound) {layouts : Layouts} (hg : s.layouts.Grows layouts) :
    s.Follows { s with layouts := layouts } :=
  Grows.follows { Grows.refl s with layouts := hg } (hs.withLayouts hg.store) rfl rfl rfl

theorem meets_onLayouts {α : Type} {x : Layouts.M α} {err : Failure → Prop}
    {post : α → Scheduler → Prop} :
    Meets (onLayouts x) s err post ↔
      Meets x s.layouts err fun a layouts ↦ post a { s with layouts := layouts } :=
  Stage.meets_zoom

/-- A computation over the store, inside the scheduler. -/
theorem ensures_onStore {α : Type} {x : TypeStore.M α} {post : α → TypeStore → Prop} (hs : s.Sound)
    (hx : Ensures x s.store fun a store ↦ s.store.Advances store ∧ post a store) :
    Ensures (onStore x) s fun a s' ↦ s.Follows s' ∧ post a s'.store := by
  unfold onStore
  rw [Ensures, meets_onLayouts, Layouts.meets_onStore]
  refine hx.imp ?_
  rintro a store ⟨hadv, hpost⟩
  exact ⟨follows_layouts hs (Layouts.grows_store hadv), hpost⟩

theorem follows_alloc (hs : s.Sound) : s.Follows { s with needsAlloc := true } :=
  Grows.follows { Grows.refl s with needsAlloc := fun _ ↦ rfl } { hs with } rfl rfl rfl

theorem ensures_rejectDecl (hs : s.Sound) (id : DeclId) (code : Code) (span : Span)
    (message : Text) :
    Ensures (rejectDecl id code span message) s fun _ s' ↦
      s.Follows s' ∧ s'.bag.hasErrors ∧ s'.badDecls = id :: s.badDecls ∧ s'.tasks = s.tasks := by
  unfold rejectDecl report
  rw [Ensures, Stage.meets_bind, Stage.meets_modify, Stage.meets_modify]
  exact ⟨Grows.follows { Grows.refl s with errors := Bag.hasErrors_add _ }
    { hs with rejected := fun _ ↦ Bag.hasErrors_add_error } rfl rfl rfl,
    Bag.hasErrors_add_error, rfl, rfl⟩

theorem ensures_taskName (t : Task) {store : TypeStore} :
    Ensures (taskName t) store fun n store' ↦
      store.Advances store' ∧ store'.taskName? t.identity = some n := by
  unfold taskName TypeStore.taskName?
  have hkind : TaskId.kind t.identity = t.kind := rfl
  rw [hkind]
  cases t.kind with
  | entry => exact ⟨.refl _, rfl⟩
  | layout => exact TypeStore.ensures_nameOf t.owner
  | function => exact TypeStore.ensures_functionName t.decl t.args
  | method | operator | constructor => exact TypeStore.ensures_memberName t.owner t.decl

/-- A task that is there becomes indirect when it is asked for as a value. -/
theorem follows_modify (hs : s.Sound) {i : Nat} {u : Task} {indirect : Bool}
    (hu : s.tasks[i]? = some u)
    (hvalue : indirect → ∃ x, s.store.Reached s.store.Mentions x ∧
      s.store.RefersByValue x u.identity) :
    s.Follows
      { s with tasks := s.tasks.modify i fun u ↦ { u with indirect := u.indirect || indirect } } := by
  have hold : ∀ (j : Nat) (t' : Task),
      (s.tasks.modify i fun u ↦ { u with indirect := u.indirect || indirect })[j]? = some t' →
      ∃ t, s.tasks[j]? = some t ∧ t'.identity = t.identity ∧ t'.name = t.name ∧
        (t'.indirect → t.indirect ∨ (indirect ∧ t.identity = u.identity)) := by
    intro j t' ht'
    rw [Array.getElem?_modify] at ht'
    split at ht'
    · subst j
      rw [hu] at ht'
      cases ht'
      exact ⟨u, hu, rfl, rfl, by simp⟩
    · exact ⟨t', ht', rfl, rfl, .inl⟩
  refine ⟨{ Grows.refl s with tasks := ?_ }, ?_, fun _ h ↦ h, ?_, fun _ h h' ↦ absurd h h',
    by simp⟩
  · intro j t ht
    simp only [Array.getElem?_modify, ht]
    split
    · exact ⟨_, rfl, rfl, fun h ↦ by simp [h]⟩
    · exact ⟨t, rfl, rfl, id⟩
  rotate_left
  · intro j hj hj'
    simp only [Array.size_modify] at hj'
    omega
  · refine ⟨hs.faithful, ?_, ?_, ?_, ?_, ?_, hs.rejected⟩
    · intro j k t v ht hv hid
      obtain ⟨t₀, ht₀, hidt, -⟩ := hold j t ht
      obtain ⟨v₀, hv₀, hidv, -⟩ := hold k v hv
      exact hs.unique j k t₀ v₀ ht₀ hv₀ (hidt.symm.trans (hid.trans hidv))
    · intro j t ht
      obtain ⟨t₀, ht₀, hidt, -⟩ := hold j t ht
      exact hidt ▸ hs.reached j t₀ ht₀
    · intro j t ht hindirect
      obtain ⟨t₀, ht₀, hidt, -, hcause⟩ := hold j t ht
      rw [hidt]
      obtain hindirect₀ | ⟨hindirect₀, hsame⟩ := hcause hindirect
      · exact hs.indirect j t₀ ht₀ hindirect₀
      · rw [hsame]
        exact hvalue hindirect₀
    · intro j t ht
      obtain ⟨t₀, ht₀, hidt, hname, -⟩ := hold j t ht
      rw [hidt, hname]
      exact hs.named j t₀ ht₀
    · intro j t ht hlayout
      obtain ⟨t₀, ht₀, hidt, -⟩ := hold j t ht
      have hkind : t.kind = t₀.kind := congrArg TaskId.kind hidt
      have howner : t.owner = t₀.owner := congrArg TaskId.owner hidt
      exact howner ▸ hs.laid j t₀ ht₀ (hkind.symm.trans hlayout)

/-- A new task goes to the end of the tasks and onto the work list. -/
theorem follows_push (hs : s.Sound) {t : Task} (hnew : ¬s.Has t.identity)
    (hreached : s.store.Reached s.store.Mentions t.identity)
    (hvalue : t.indirect → ∃ x, s.store.Reached s.store.Mentions x ∧
      s.store.RefersByValue x t.identity)
    (hname : s.store.taskName? t.identity = some t.name)
    (hlaid : t.kind = .layout → t.owner ∈ s.required) :
    s.Follows { s with tasks := s.tasks.push t, work := s.tasks.size :: s.work } := by
  have hold : ∀ (j : Nat) (u : Task), (s.tasks.push t)[j]? = some u →
      (j = s.tasks.size ∧ u = t) ∨ s.tasks[j]? = some u := by
    intro j u hu
    rw [Array.getElem?_push] at hu
    split at hu
    · cases hu
      exact .inl ⟨‹_›, rfl⟩
    · exact .inr hu
  refine ⟨{ Grows.refl s with tasks := ?_ }, ?_, fun _ h ↦ List.mem_cons_of_mem _ h, ?_,
    fun _ h h' ↦ absurd h h', ?_⟩
  · intro j u hu
    have hj : j < s.tasks.size := (Array.getElem?_eq_some_iff.1 hu).1
    refine ⟨u, ?_, rfl, id⟩
    simp only [Array.getElem?_push]
    rw [if_neg (by omega), hu]
  rotate_left
  · intro j hj hj'
    simp only [Array.size_push] at hj'
    obtain rfl : j = s.tasks.size := by omega
    exact List.mem_cons_self
  · rw [Array.size_push, List.length_cons]
    omega
  · refine ⟨hs.faithful, ?_, ?_, ?_, ?_, ?_, hs.rejected⟩
    · intro j k u v hu hv hid
      obtain ⟨rfl, rfl⟩ | hu₀ := hold j u hu <;> obtain ⟨rfl, rfl⟩ | hv₀ := hold k v hv
      · rfl
      · exact absurd ⟨k, v, hv₀, hid.symm⟩ hnew
      · exact absurd ⟨j, u, hu₀, hid⟩ hnew
      · exact hs.unique j k u v hu₀ hv₀ hid
    · intro j u hu
      obtain ⟨-, rfl⟩ | hu := hold j u hu
      · exact hreached
      · exact hs.reached j u hu
    · intro j u hu hindirect
      obtain ⟨-, rfl⟩ | hu := hold j u hu
      · exact hvalue hindirect
      · exact hs.indirect j u hu hindirect
    · intro j u hu
      obtain ⟨-, rfl⟩ | hu := hold j u hu
      · exact hname
      · exact hs.named j u hu
    · intro j u hu hlayout
      obtain ⟨-, rfl⟩ | hu := hold j u hu
      · exact hlaid hlayout
      · exact hs.laid j u hu hlayout

/-- A task that the program needs is there after it was pushed, and only once. -/
theorem ensures_push (hs : s.Sound) {t : Task}
    (hreached : s.store.Reached s.store.Mentions t.identity)
    (hvalue : t.indirect → ∃ x, s.store.Reached s.store.Mentions x ∧
      s.store.RefersByValue x t.identity)
    (hlaid : t.kind = .layout → t.owner ∈ s.required) :
    Ensures (push t) s fun _ s' ↦
      s.Follows s' ∧ s'.Has t.identity ∧ (t.indirect → s'.HasIndirect t.identity) ∧
        s'.badDecls = s.badDecls ∧ s'.tasks.size ≤ s.tasks.size + 1 := by
  unfold push
  rw [Ensures, Stage.meets_bind, Stage.meets_get]
  cases hfind : s.tasks.findIdx? fun u ↦ u.identity = t.identity with
  | some i =>
    obtain ⟨hi, hid, -⟩ := Array.findIdx?_eq_some_iff_getElem.1 hfind
    have hu : s.tasks[i]? = some s.tasks[i] := Array.getElem?_eq_getElem hi
    have hid : s.tasks[i].identity = t.identity := of_decide_eq_true hid
    have hget : (s.tasks.modify i fun u ↦ { u with indirect := u.indirect || t.indirect })[i]?
        = some { s.tasks[i] with indirect := s.tasks[i].indirect || t.indirect } := by
      simp [Array.getElem?_modify, hu]
    exact ⟨follows_modify hs hu (by rwa [hid]), ⟨i, _, hget, hid⟩,
      fun h ↦ ⟨i, _, hget, hid, by simp [h]⟩, rfl, by simp⟩
  | none =>
    have hnew : ¬s.Has t.identity := by
      rintro ⟨i, u, hu, hid⟩
      obtain ⟨hi, rfl⟩ := Array.getElem?_eq_some_iff.1 hu
      have := Array.findIdx?_eq_none_iff.1 hfind s.tasks[i] (Array.getElem_mem hi)
      exact absurd hid (of_decide_eq_false this)
    simp only [Stage.meets_bind]
    unfold onStore
    rw [meets_onLayouts, Layouts.meets_onStore]
    refine (ensures_taskName t).imp ?_
    rintro name store ⟨hadv, hname⟩
    let s₁ : Scheduler := { s with layouts := { s.layouts with store := store } }
    have hf₁ : s.Follows s₁ := follows_layouts hs (Layouts.grows_store hadv)
    have hf₂ := follows_push (s := s₁) (t := { t with name := name }) hf₁.sound hnew
      (hadv.reached hreached)
      (fun h ↦ by
        obtain ⟨x, hx, hrefers⟩ := hvalue h
        exact ⟨x, hadv.reached hx, hadv.refersByValue hrefers⟩)
      hname hlaid
    have hget : (s.tasks.push { t with name := name })[s.tasks.size]? = some { t with name := name } :=
      Array.getElem?_push_size
    exact ⟨hf₁.trans hf₂, ⟨_, _, hget, rfl⟩, fun h ↦ ⟨_, _, hget, rfl, h⟩, rfl, by simp⟩

/-! ## Types that are required -/

/-- Types that some task mentions lead to the type. -/
def Wanted (s : Scheduler) (h : Handle) : Prop :=
  ∃ x g, s.store.Reached s.store.Mentions x ∧ s.store.Mentions x g ∧
    ReflTransGen s.store.Leads g h

theorem Grows.wanted (hg : s.Grows s') {h : Handle} (hw : s.Wanted h) : s'.Wanted h := by
  obtain ⟨x, g, hx, hmentions, hpath⟩ := hw
  exact ⟨x, g, hg.store.reached hx, hg.store.mentions hmentions,
    ReflTransGen.mono (fun _ _ ↦ hg.store.leads) _ _ hpath⟩

theorem Wanted.leads {h g : Handle} (hw : s.Wanted h) (hl : s.store.Leads h g) : s.Wanted g := by
  obtain ⟨x, g₀, hx, hmentions, hpath⟩ := hw
  exact ⟨x, g₀, hx, hmentions, hpath.tail hl⟩

theorem Wanted.layout {h : Handle} (hw : s.Wanted h) (hagg : s.store.IsAggregate h) :
    s.store.Reached s.store.Mentions (.layout h) := by
  obtain ⟨x, g, hx, hmentions, hpath⟩ := hw
  exact .layout hx hmentions hpath hagg

/-- Marking a type as required is following it once what is behind it is followed. -/
theorem Follows.of_mark {h : Handle}
    (hf : Follows { s with required := h :: s.required } s') (hsettled : s'.Settled h) :
    s.Follows s' where
  toGrows :=
    have hmark : s.Grows { s with required := h :: s.required } :=
      { Grows.refl s with required := fun _ hg ↦ List.mem_cons_of_mem _ hg }
    hmark.trans hf.toGrows
  sound := hf.sound
  work := hf.work
  fresh := hf.fresh
  counted := hf.counted
  closes := by
    intro g hg hnew
    by_cases hgh : g = h
    · exact hgh ▸ hsettled
    · exact hf.closes g hg (by simp [hgh, hnew])

theorem ensures_getType (hs : s.Sound) (h : Handle) :
    Ensures (onStore (TypeStore.getType h)) s fun t s' ↦
      s.Follows s' ∧ s'.store.type? h = some t :=
  ensures_onStore hs (TypeStore.builds_getType h s.store)

/-- The application of a type that is wanted, which is looked at for the first time. -/
structure Wants (s : Scheduler) (h : Handle) (a : Application) : Prop where
  sound : s.Sound
  wanted : s.Wanted h
  application : s.store.application? h = some a

section Wants

variable {h : Handle} {a : Application} {depth : Nat}

theorem Wants.sound_mark (hw : s.Wants h a) :
    Sound { s with required := h :: s.required } :=
  { hw.sound with
    laid := fun i t ht hlayout ↦ List.mem_cons_of_mem _ (hw.sound.laid i t ht hlayout) }

theorem Wants.kind_pointer (_ : s.Wants h a) (ht : a.template = .pointer) :
    a.template.kind s.store.program = .pointer := by
  rw [ht]
  rfl

theorem Wants.kind_function (_ : s.Wants h a) (ht : a.template = .function) :
    a.template.kind s.store.program = .function := by
  rw [ht]
  rfl

/-- It is enough to settle what the kind of the type asks for. -/
theorem Wants.settle (hw : s.Wants h a) (hf : Follows { s with required := h :: s.required } s')
    (hagg : (a.template.kind s.store.program).isAggregate → s'.Has (.layout h))
    (hpointer : a.template.kind s.store.program = .pointer → s'.Requires a.elem)
    (hfunction : a.template.kind s.store.program = .function →
      ∀ g ∈ a.params ++ [a.result], s'.Requires g) :
    s.Follows s' ∧ s'.Requires h := by
  obtain ⟨a', ha', htemplate, hargs⟩ := hf.store.application? hw.application
  refine ⟨hf.of_mark ⟨a', ha', ?_, ?_, ?_⟩, .inr (hf.required List.mem_cons_self)⟩
  · rw [htemplate, hf.store.program]
    exact hagg
  · simpa only [Application.elem, htemplate, hargs] using fun ht ↦ hpointer (hw.kind_pointer ht)
  · simpa only [Application.params, Application.result, htemplate, hargs] using
      fun ht ↦ hfunction (hw.kind_function ht)

theorem ensures_requireLayout (hw : s.Wants h a)
    (hagg : (a.template.kind s.store.program).isAggregate) :
    Ensures (push { kind := .layout, owner := h }) { s with required := h :: s.required }
      fun _ s' ↦ s.Follows s' ∧ s'.Requires h := by
  have hreached := hw.wanted.layout ⟨_, TypeStore.kindOf_eq hw.application, hagg⟩
  refine (ensures_push (t := { kind := .layout, owner := h }) hw.sound_mark hreached
    (by rintro ⟨⟩) fun _ ↦ List.mem_cons_self).imp ?_
  rintro _ s' ⟨hf, hhas, -⟩
  refine hw.settle hf (fun _ ↦ hhas) (fun hk ↦ ?_) fun hk ↦ ?_
  · rw [hk] at hagg
    cases hagg
  · rw [hk] at hagg
    cases hagg

/-- What requiring a type with less depth gives. -/
def RequiresWithin (depth : Nat) : Prop :=
  ∀ {s : Scheduler} {g : Handle}, s.Sound → (g ≠ 0 → s.Wanted g) →
    Ensures (requireWithin depth g) s fun _ s' ↦ s.Follows s' ∧ s'.Requires g

theorem ensures_requirePointer (hw : s.Wants h a) (hk : a.template.kind s.store.program = .pointer)
    (ih : RequiresWithin depth) :
    Ensures (do
        let t ← onStore (TypeStore.getType h)
        requireWithin depth t.elem) { s with required := h :: s.required }
      fun _ s' ↦ s.Follows s' ∧ s'.Requires h := by
  rw [Ensures, Stage.meets_bind]
  refine (ensures_getType hw.sound_mark h).imp ?_
  rintro t s₂ ⟨hf₂, ht⟩
  obtain ⟨a₂, ha₂, htemplate₂, hargs₂⟩ := hf₂.store.application? hw.application
  have helem : t.elem = a.elem := by
    rw [(hf₂.sound.faithful.fits ha₂ ht).2.elem]
    simp only [Application.elem, htemplate₂, hargs₂]
  have hwelem (hne : t.elem ≠ 0) : s₂.Wanted t.elem :=
    (hf₂.wanted hw.wanted).leads (hf₂.sound.faithful.leads_elem ht hne)
  refine (ih hf₂.sound hwelem).imp ?_
  rintro _ s₃ ⟨hf₃, hreq⟩
  refine hw.settle (hf₂.trans hf₃) (fun hagg ↦ ?_) (fun _ ↦ helem ▸ hreq) fun hk' ↦ ?_
  · rw [hk] at hagg
    cases hagg
  · rw [hk] at hk'
    cases hk'

/-- Parameters and result of a function type are required one after the other. -/
theorem ensures_requireFunction (hw : s.Wants h a)
    (hk : a.template.kind s.store.program = .function) (ih : RequiresWithin depth) :
    Ensures (do
        let t ← onStore (TypeStore.getType h)
        for p in t.params ++ [t.result] do
          requireWithin depth p) { s with required := h :: s.required }
      fun _ s' ↦ s.Follows s' ∧ s'.Requires h := by
  rw [Ensures, Stage.meets_bind]
  refine (ensures_getType hw.sound_mark h).imp ?_
  rintro t s₂ ⟨hf₂, ht⟩
  obtain ⟨a₂, ha₂, htemplate₂, hargs₂⟩ := hf₂.store.application? hw.application
  have hfits := (hf₂.sound.faithful.fits ha₂ ht).2
  have hparts : t.params ++ [t.result] = a.params ++ [a.result] := by
    rw [hfits.params, hfits.result]
    simp only [Application.params, Application.result, htemplate₂, hargs₂]
  have hwpart (g : Handle) (hg : g ∈ t.params ++ [t.result]) (hne : g ≠ 0) : s₂.Wanted g :=
    (hf₂.wanted hw.wanted).leads (hf₂.sound.faithful.leads_part ht hg hne)
  rw [Stage.meets_bind]
  refine (Stage.meets_forIn (fun done _ s' ↦ s₂.Follows s' ∧ ∀ g ∈ done, s'.Requires g)
    ⟨.refl hf₂.sound, by simp⟩ ?_).imp ?_
  · rintro done g rest _ s₃ hsplit ⟨hf₃, hreq⟩
    rw [Stage.meets_bind]
    refine (ih hf₃.sound fun hne ↦
      hf₃.wanted (hwpart g (by rw [hsplit]; simp) hne)).imp ?_
    rintro _ s₄ ⟨hf₄, hg⟩
    refine ⟨_, rfl, hf₃.trans hf₄, fun g' hg' ↦ ?_⟩
    obtain hg' | hg' := List.mem_append.1 hg'
    · exact hf₄.requires (hreq g' hg')
    · obtain rfl := List.mem_singleton.1 hg'
      exact hg
  · rintro _ s₃ ⟨hf₃, hreq⟩
    refine hw.settle (hf₂.trans hf₃) (fun hagg ↦ ?_) (fun hk' ↦ ?_) fun _ ↦ hparts ▸ hreq
    · rw [hk] at hagg
      cases hagg
    · rw [hk] at hk'
      cases hk'

end Wants

theorem ensures_requireWithin (hs : s.Sound) (depth : Nat) {h : Handle}
    (hw : h ≠ 0 → s.Wanted h) :
    Ensures (requireWithin depth h) s fun _ s' ↦ s.Follows s' ∧ s'.Requires h := by
  induction depth generalizing h s with
  | zero => trivial
  | succ depth ih =>
    unfold requireWithin
    rw [Ensures, Stage.meets_bind, Stage.meets_get]
    by_cases hh : h = 0 ∨ h ∈ s.required
    · simp only [hh, if_true, Stage.meets_pure]
      exact ⟨.refl hs, hh⟩
    simp only [hh, if_false, Stage.meets_bind, Stage.meets_modify, Stage.meets_get,
      Stage.meets_ofExcept]
    obtain ⟨hzero, -⟩ := not_or.1 hh
    cases ha : s.store.application? h with
    | none => simp [TypeStore.kindOf, hzero, ha]
    | some a =>
      have hwants : s.Wants h a := ⟨hs, hw hzero, ha⟩
      rw [TypeStore.kindOf_eq ha]
      cases hk : a.template.kind s.store.program
      case struct | cls => exact ensures_requireLayout hwants (by rw [hk]; rfl)
      case void | primitive | unknown =>
        refine hwants.settle (.refl hwants.sound_mark) (fun h ↦ ?_) (fun h ↦ ?_) fun h ↦ ?_
        · rw [hk] at h
          cases h
        · rw [hk] at h
          cases h
        · rw [hk] at h
          cases h
      case pointer => exact ensures_requirePointer hwants hk fun hs hw ↦ ih hs hw
      case function => exact ensures_requireFunction hwants hk fun hs hw ↦ ih hs hw

theorem ensures_require (hs : s.Sound) {h : Handle} (hw : h ≠ 0 → s.Wanted h) :
    Ensures (require h) s fun _ s' ↦ s.Follows s' ∧ s'.Requires h := by
  unfold require
  rw [Ensures, Stage.meets_bind, Stage.meets_get]
  exact ensures_requireWithin hs _ hw

/-- A type expression stands for a type that is required. -/
def RequiresType (s : Scheduler) (t : TypeId) (σ : List Handle) : Prop :=
  ∃ h, s.store.denote t σ = some h ∧ s.Requires h

theorem Grows.requiresType (hg : s.Grows s') {t : TypeId} {σ : List Handle}
    (ht : s.RequiresType t σ) : s'.RequiresType t σ := by
  obtain ⟨h, hh, hreq⟩ := ht
  exact ⟨h, hg.store.denote hh, hg.requires hreq⟩

theorem ensures_requireType (hs : s.Sound) {x : TaskId} {t : TypeId} {σ : List Handle}
    (hx : s.store.Reached s.store.Mentions x)
    (hm : ∀ store h, s.store.Keeps store → store.denote t σ = some h → store.Mentions x h) :
    Ensures (requireType σ t) s fun _ s' ↦ s.Follows s' ∧ s'.RequiresType t σ := by
  unfold requireType
  rw [Ensures, Stage.meets_bind]
  refine (ensures_onStore hs (TypeStore.ensures_resolve t σ)).imp ?_
  rintro h s₁ ⟨hf₁, hh⟩
  have hw : s₁.Wanted h :=
    ⟨x, h, hf₁.store.reached hx, hm _ h hf₁.store.toKeeps hh, .refl⟩
  refine (ensures_require hf₁.sound fun _ ↦ hw).imp ?_
  rintro _ s₂ ⟨hf₂, hreq⟩
  exact ⟨hf₁.trans hf₂, h, hf₂.store.denote hh, hreq⟩

/-! ## What an expression refers to -/

/-- What an expression of a scope refers to is there. -/
def Covers (s : Scheduler) (σ : List Handle) (e : Expr) : Prop :=
  s.RequiresType e.type σ ∧
  match e.kind with
  | .call =>
    ∃ d, s.store.program.decl? e.decl = some d ∧
      (d.has .native = false →
        ∃ args, s.store.denoteAll e.typeArgs σ = some args ∧ s.Has (.function e.decl args))
  | .funcRef =>
    ∃ d, s.store.program.decl? e.decl = some d ∧
      (d.has .native = false →
        ∃ args, s.store.denoteAll e.typeArgs σ = some args ∧ s.HasIndirect (.function e.decl args)) ∧
      (d.has .native = true → s.bag.hasErrors)
  | .methodCall =>
    ∃ receiver h decl, s.store.program.expr? e.x = some receiver ∧
      s.store.denote receiver.type σ = some h ∧ s.store.method? h e.name = some decl ∧
      s.Has (.method decl h)
  | .operator =>
    ∃ receiver h decl, s.store.program.expr? e.x = some receiver ∧
      s.store.denote receiver.type σ = some h ∧ s.store.operator? h e.op = some decl ∧
      s.Has (.operator decl h)
  | .construct =>
    ∃ h agg args k, s.store.denote e.type σ = some h ∧ s.store.declared? h = some (agg, args) ∧
      s.store.kindOf h = .ok k ∧ (agg.init ≠ 0 → s.Has (.constructor agg.init h)) ∧
      (agg.init = 0 → k = .cls → s.needsAlloc)
  | .alloc => s.needsAlloc
  | _ => True

theorem Grows.covers (hg : s.Grows s') {σ : List Handle} {e : Expr} (hc : s.Covers σ e) :
    s'.Covers σ e := by
  obtain ⟨htype, hrest⟩ := hc
  refine ⟨hg.requiresType htype, ?_⟩
  cases hk : e.kind <;> rw [hk] at hrest <;> simp only [hg.store.program] at hrest ⊢
  case call =>
    obtain ⟨d, hd, hcall⟩ := hrest
    refine ⟨d, hd, fun hnative ↦ ?_⟩
    obtain ⟨args, hargs, hhas⟩ := hcall hnative
    exact ⟨args, hg.store.denoteAll hargs, hg.has hhas⟩
  case funcRef =>
    obtain ⟨d, hd, hvalue, hreject⟩ := hrest
    refine ⟨d, hd, fun hnative ↦ ?_, fun hnative ↦ hg.errors (hreject hnative)⟩
    obtain ⟨args, hargs, hhas⟩ := hvalue hnative
    exact ⟨args, hg.store.denoteAll hargs, hg.hasIndirect hhas⟩
  case methodCall =>
    obtain ⟨receiver, h, decl, hreceiver, hh, hdecl, hhas⟩ := hrest
    exact ⟨receiver, h, decl, hreceiver, hg.store.denote hh, hg.store.method? hdecl, hg.has hhas⟩
  case operator =>
    obtain ⟨receiver, h, decl, hreceiver, hh, hdecl, hhas⟩ := hrest
    exact ⟨receiver, h, decl, hreceiver, hg.store.denote hh, hg.store.operator? hdecl, hg.has hhas⟩
  case construct =>
    obtain ⟨h, agg, args, k, hh, hagg, hkind, hinit, halloc⟩ := hrest
    exact ⟨h, agg, args, k, hg.store.denote hh, hg.store.declared? hagg, hg.store.kindOf hkind,
      fun h ↦ hg.has (hinit h), fun h h' ↦ hg.needsAlloc (halloc h h')⟩
  case alloc => exact hg.needsAlloc hrest

theorem ensures_calledDecl (what : String) (id : DeclId) :
    Ensures (calledDecl what id) s fun d s' ↦ s = s' ∧ s.store.program.decl? id = some d := by
  unfold calledDecl
  rw [Ensures, Stage.meets_bind, Stage.meets_get]
  cases hd : s.program.decl? id with
  | none => trivial
  | some d =>
    by_cases hk : d.kind = .function
    · simp only [hk, if_true, Stage.meets_pure]
      exact ⟨trivial, hd⟩
    · simp [hk]

theorem ensures_resolvedType (hs : s.Sound) (t : TypeId) (σ : List Handle) :
    Ensures (onStore do
        let h ← TypeStore.resolve t σ
        TypeStore.getType h) s fun type s' ↦
      s.Follows s' ∧ s'.store.denote t σ = some type.handle ∧
        s'.store.type? type.handle = some type := by
  have hbuilt : Ensures (do
      let h ← TypeStore.resolve t σ
      TypeStore.getType h) s.store fun type store ↦ s.store.Advances store ∧
        ∃ h, store.denote t σ = some h ∧ store.type? h = some type := by
    rw [Ensures, Stage.meets_bind]
    refine (TypeStore.ensures_resolve t σ).imp ?_
    rintro h store ⟨hadv, hh⟩
    refine (TypeStore.builds_getType h store).imp ?_
    rintro type store' ⟨hadv', ht⟩
    exact ⟨hadv.trans hadv', h, hadv'.denote hh, ht⟩
  refine (ensures_onStore hs hbuilt).imp ?_
  rintro type s' ⟨hf, h, hh, ht⟩
  rw [hf.sound.faithful.handle ht]
  exact ⟨hf, hh, ht⟩

theorem ensures_receiver (hs : s.Sound) (σ : List Handle) (x : ExprId) (what : String) :
    Ensures (receiver σ x what) s fun t s' ↦ s.Follows s' ∧
      ∃ e, s.store.program.expr? x = some e ∧ s'.store.denote e.type σ = some t.handle ∧
        s'.store.type? t.handle = some t := by
  unfold receiver
  rw [Ensures, Stage.meets_bind, Stage.meets_get]
  cases he : s.program.expr? x with
  | none => trivial
  | some e =>
    simp only [Stage.some!, Stage.meets_bind, Stage.meets_pure]
    refine (ensures_resolvedType hs e.type σ).imp ?_
    rintro t s' ⟨hf, hh, ht⟩
    refine Stage.meets_ite.2 ⟨fun _ ↦ ⟨hf, e, he, hh, ht⟩, fun _ ↦ trivial⟩

/-- What a task refers to may be pushed. -/
theorem ensures_pushReferred (hs : s.Sound) {x : TaskId} {t : Task}
    (hx : s.store.Reached s.store.Mentions x) (hrefers : s.store.Refers x t.identity)
    (hvalue : t.indirect → s.store.RefersByValue x t.identity) :
    Ensures (push t) s fun _ s' ↦
      s.Follows s' ∧ s'.Has t.identity ∧ (t.indirect → s'.HasIndirect t.identity) :=
  (ensures_push hs (.refers hx hrefers) (fun h ↦ ⟨x, hx, hvalue h⟩)
    fun h ↦ absurd h hrefers.kind_ne.2).imp
    fun _ _ h ↦ ⟨h.1, h.2.1, h.2.2.1⟩

/-- A task that is reached has the expression in its code, in the scope `σ`. -/
structure AtExpr (s : Scheduler) (x : TaskId) (σ : List Handle) (id : ExprId) (e : Expr) : Prop where
  sound : s.Sound
  reached : s.store.Reached s.store.Mentions x
  scope : s.store.scope? x = some σ
  inCode : s.store.InCode x id e

section Followed

variable {x : TaskId} {σ : List Handle} {id : ExprId} {e : Expr}

theorem Follows.atExpr (hf : s.Follows s') (h : s.AtExpr x σ id e) : s'.AtExpr x σ id e where
  sound := hf.sound
  reached := hf.store.reached h.reached
  scope := hf.store.scope? h.scope
  inCode := hf.store.inCode h.inCode

/-- Behind its type, following an expression only has to bring in what its kind refers to. -/
theorem ensures_behindType {k : PUnit → M PUnit} (h : s.AtExpr x σ id e)
    (hk : ∀ s₁, s₁.AtExpr x σ id e → Ensures (k ⟨⟩) s₁ fun _ s₂ ↦
      s₁.Follows s₂ ∧ (s₂.RequiresType e.type σ → s₂.Covers σ e)) :
    Ensures (requireType σ e.type >>= k) s fun _ s' ↦ s.Follows s' ∧ s'.Covers σ e := by
  rw [Ensures, Stage.meets_bind]
  refine (ensures_requireType h.sound h.reached fun store h' hkeeps hh ↦
    .code (.expr (hkeeps.scope? h.scope) (hkeeps.inCode h.inCode) hh)).imp ?_
  rintro _ s₁ ⟨hf₁, htype⟩
  refine (hk s₁ (hf₁.atExpr h)).imp ?_
  rintro _ s₂ ⟨hf₂, hcovers⟩
  exact ⟨hf₁.trans hf₂, hcovers (hf₂.requiresType htype)⟩

theorem ensures_followCall (h : s.AtExpr x σ id e) (hkind : e.kind = .call) :
    Ensures (followExpr σ e) s fun _ s' ↦ s.Follows s' ∧ s'.Covers σ e := by
  unfold followExpr
  rw [hkind]
  refine ensures_behindType h fun s₁ h₁ ↦ ?_
  simp only [Ensures, Stage.meets_bind]
  refine (ensures_calledDecl "call" e.decl).imp ?_
  rintro d _ ⟨rfl, hd⟩
  by_cases hnative : d.has .native
  · simp only [hnative, if_true, Stage.meets_pure]
    refine ⟨.refl h₁.sound, fun htype ↦ ⟨htype, ?_⟩⟩
    rw [hkind]
    exact ⟨d, hd, fun h ↦ by simp [hnative] at h⟩
  simp only [hnative, Bool.false_eq_true, if_false, Stage.meets_bind]
  refine (ensures_onStore h₁.sound (TypeStore.ensures_resolveAll e.typeArgs σ)).imp ?_
  rintro args s₂ ⟨hf₂, hargs⟩
  have h₂ := hf₂.atExpr h₁
  have hd₂ : s₂.store.program.decl? e.decl = some d := by rw [hf₂.store.program]; exact hd
  refine (ensures_pushReferred (t := { kind := .function, decl := e.decl, args := args }) h₂.sound
    h₂.reached (.call h₂.scope h₂.inCode hkind hd₂ (by simpa using hnative) hargs)
    (by rintro ⟨⟩)).imp ?_
  rintro _ s₃ ⟨hf₃, hhas, -⟩
  refine ⟨hf₂.trans hf₃, fun htype ↦ ⟨htype, ?_⟩⟩
  rw [hkind]
  exact ⟨d, by rw [hf₃.store.program]; exact hd₂,
    fun _ ↦ ⟨args, hf₃.store.denoteAll hargs, hhas⟩⟩

/-- A native function is no value, so using it as one is reported. -/
theorem ensures_followFuncRef (h : s.AtExpr x σ id e) (hkind : e.kind = .funcRef) :
    Ensures (followExpr σ e) s fun _ s' ↦ s.Follows s' ∧ s'.Covers σ e := by
  unfold followExpr
  rw [hkind]
  refine ensures_behindType h fun s₁ h₁ ↦ ?_
  simp only [Ensures, Stage.meets_bind]
  refine (ensures_calledDecl "reference" e.decl).imp ?_
  rintro d _ ⟨rfl, hd⟩
  by_cases hnative : d.has .native
  · simp only [hnative, if_true, Stage.meets_bind, Stage.meets_get]
    by_cases hbad : e.decl ∈ s₁.badDecls
    · simp only [hbad, not_true_eq_false, if_false, Stage.meets_pure]
      refine ⟨.refl h₁.sound, fun htype ↦ ⟨htype, ?_⟩⟩
      rw [hkind]
      exact ⟨d, hd, fun h ↦ by simp [hnative] at h,
        fun _ ↦ h₁.sound.rejected (List.ne_nil_of_mem hbad)⟩
    · simp only [hbad, not_false_eq_true, if_true, Stage.meets_bind]
      refine (ensures_rejectDecl h₁.sound e.decl .badNative d.span _).imp ?_
      rintro _ s₂ ⟨hf₂, herrors, -⟩
      refine ⟨hf₂, fun htype ↦ ⟨htype, ?_⟩⟩
      rw [hkind]
      exact ⟨d, by rw [hf₂.store.program]; exact hd, fun h ↦ by simp [hnative] at h,
        fun _ ↦ herrors⟩
  simp only [hnative, Bool.false_eq_true, if_false, Stage.meets_bind]
  refine (ensures_onStore h₁.sound (TypeStore.ensures_resolveAll e.typeArgs σ)).imp ?_
  rintro args s₂ ⟨hf₂, hargs⟩
  have h₂ := hf₂.atExpr h₁
  have hd₂ : s₂.store.program.decl? e.decl = some d := by rw [hf₂.store.program]; exact hd
  have hvalue : s₂.store.RefersByValue x (.function e.decl args) :=
    .mk h₂.scope h₂.inCode hkind hd₂ (by simpa using hnative) hargs
  refine (ensures_pushReferred
    (t := { kind := .function, decl := e.decl, args := args, indirect := true }) h₂.sound
    h₂.reached (.value hvalue) fun _ ↦ hvalue).imp ?_
  rintro _ s₃ ⟨hf₃, -, hhas⟩
  refine ⟨hf₂.trans hf₃, fun htype ↦ ⟨htype, ?_⟩⟩
  rw [hkind]
  exact ⟨d, by rw [hf₃.store.program]; exact hd₂,
    fun _ ↦ ⟨args, hf₃.store.denoteAll hargs, hhas rfl⟩, fun h ↦ absurd h hnative⟩

theorem ensures_followMethodCall (h : s.AtExpr x σ id e) (hkind : e.kind = .methodCall) :
    Ensures (followExpr σ e) s fun _ s' ↦ s.Follows s' ∧ s'.Covers σ e := by
  unfold followExpr
  rw [hkind]
  refine ensures_behindType h fun s₁ h₁ ↦ ?_
  simp only [Ensures, Stage.meets_bind]
  refine (ensures_receiver h₁.sound σ e.x "method call").imp ?_
  rintro t s₂ ⟨hf₂, receiver, hreceiver, hh, ht⟩
  have h₂ := hf₂.atExpr h₁
  have hreceiver₂ : s₂.store.program.expr? e.x = some receiver := by
    rw [hf₂.store.program]; exact hreceiver
  cases hdecl : t.method? e.name with
  | none => trivial
  | some decl =>
    have hmethod := h₂.sound.faithful.method? ht hdecl
    refine (ensures_pushReferred (t := { kind := .method, decl := decl, owner := t.handle })
      h₂.sound h₂.reached (.method h₂.scope h₂.inCode hkind hreceiver₂ hh hmethod)
      (by rintro ⟨⟩)).imp ?_
    rintro _ s₃ ⟨hf₃, hhas, -⟩
    refine ⟨hf₂.trans hf₃, fun htype ↦ ⟨htype, ?_⟩⟩
    rw [hkind]
    exact ⟨receiver, t.handle, decl, by rw [hf₃.store.program]; exact hreceiver₂,
      hf₃.store.denote hh, hf₃.store.method? hmethod, hhas⟩

theorem ensures_followOperator (h : s.AtExpr x σ id e) (hkind : e.kind = .operator) :
    Ensures (followExpr σ e) s fun _ s' ↦ s.Follows s' ∧ s'.Covers σ e := by
  unfold followExpr
  rw [hkind]
  refine ensures_behindType h fun s₁ h₁ ↦ ?_
  simp only [Ensures, Stage.meets_bind]
  refine (ensures_receiver h₁.sound σ e.x "operator").imp ?_
  rintro t s₂ ⟨hf₂, receiver, hreceiver, hh, ht⟩
  have h₂ := hf₂.atExpr h₁
  have hreceiver₂ : s₂.store.program.expr? e.x = some receiver := by
    rw [hf₂.store.program]; exact hreceiver
  cases hdecl : t.operator? e.op with
  | none => trivial
  | some decl =>
    have hoperator := h₂.sound.faithful.operator? ht hdecl
    refine (ensures_pushReferred (t := { kind := .operator, decl := decl, owner := t.handle })
      h₂.sound h₂.reached (.operator h₂.scope h₂.inCode hkind hreceiver₂ hh hoperator)
      (by rintro ⟨⟩)).imp ?_
    rintro _ s₃ ⟨hf₃, hhas, -⟩
    refine ⟨hf₂.trans hf₃, fun htype ↦ ⟨htype, ?_⟩⟩
    rw [hkind]
    exact ⟨receiver, t.handle, decl, by rw [hf₃.store.program]; exact hreceiver₂,
      hf₃.store.denote hh, hf₃.store.operator? hoperator, hhas⟩

theorem ensures_followMember (h : s.AtExpr x σ id e) (hkind : e.kind = .member) :
    Ensures (followExpr σ e) s fun _ s' ↦ s.Follows s' ∧ s'.Covers σ e := by
  unfold followExpr
  rw [hkind]
  refine ensures_behindType h fun s₁ h₁ ↦ ?_
  simp only [Ensures, Stage.meets_bind]
  refine (ensures_receiver h₁.sound σ e.x "member access").imp ?_
  rintro t s₂ ⟨hf₂, -⟩
  refine Stage.meets_ite.2 ⟨fun _ ↦ trivial, fun _ ↦ ⟨hf₂, fun htype ↦ ⟨htype, ?_⟩⟩⟩
  rw [hkind]
  trivial

/-- Constructing brings in the constructor, or the allocator for a class that has none. -/
theorem ensures_followConstruct (h : s.AtExpr x σ id e) (hkind : e.kind = .construct) :
    Ensures (followExpr σ e) s fun _ s' ↦ s.Follows s' ∧ s'.Covers σ e := by
  unfold followExpr
  rw [hkind]
  refine ensures_behindType h fun s₁ h₁ ↦ ?_
  simp only [Ensures, Stage.meets_bind]
  refine (ensures_resolvedType h₁.sound e.type σ).imp ?_
  rintro t s₂ ⟨hf₂, hh, ht⟩
  have h₂ := hf₂.atExpr h₁
  by_cases hagg : t.kind.isAggregate
  swap
  · simp [hagg]
  have hzero : t.handle ≠ 0 := TypeStore.ne_zero_of_type? ht (by rintro rfl; cases hagg)
  obtain ⟨agg, hdeclared, hinit, -⟩ := h₂.sound.faithful.declared? ht hzero
  have hkindOf := h₂.sound.faithful.kindOf ht
  simp only [hagg, Bool.not_true, Bool.false_eq_true, if_false]
  by_cases hnone : t.init = 0
  · simp only [hnone, ne_eq, not_true_eq_false, if_false]
    refine Stage.meets_ite.2 ⟨fun _ ↦ ?_, fun hcls ↦ ?_⟩
    · refine ⟨hf₂.trans (follows_alloc h₂.sound), fun htype ↦ ⟨htype, ?_⟩⟩
      rw [hkind]
      exact ⟨t.handle, agg, t.args, t.kind, hh, hdeclared, hkindOf,
        fun h ↦ absurd (hinit.trans hnone) h, fun _ _ ↦ rfl⟩
    · refine ⟨hf₂, fun htype ↦ ⟨htype, ?_⟩⟩
      rw [hkind]
      exact ⟨t.handle, agg, t.args, t.kind, hh, hdeclared, hkindOf,
        fun h ↦ absurd (hinit.trans hnone) h, fun _ h ↦ absurd h hcls⟩
  · simp only [hnone, ne_eq, not_false_eq_true, if_true]
    have hconstructor : s₂.store.constructor? t.handle = some t.init :=
      Option.bind_eq_some_iff.2 ⟨_, hdeclared, by simp [hinit, hnone]⟩
    refine (ensures_pushReferred (t := { kind := .constructor, decl := t.init, owner := t.handle })
      h₂.sound h₂.reached (.constructor h₂.scope h₂.inCode hkind hh hconstructor)
      (by rintro ⟨⟩)).imp ?_
    rintro _ s₃ ⟨hf₃, hhas, -⟩
    refine ⟨hf₂.trans hf₃, fun htype ↦ ⟨htype, ?_⟩⟩
    rw [hkind]
    exact ⟨t.handle, agg, t.args, t.kind, hf₃.store.denote hh, hf₃.store.declared? hdeclared,
      hf₃.store.kindOf hkindOf, fun _ ↦ hinit ▸ hhas, fun h ↦ absurd (hinit.symm.trans h) hnone⟩

theorem ensures_followAlloc (h : s.AtExpr x σ id e) (hkind : e.kind = .alloc) :
    Ensures (followExpr σ e) s fun _ s' ↦ s.Follows s' ∧ s'.Covers σ e := by
  unfold followExpr
  rw [hkind]
  refine ensures_behindType h fun s₁ h₁ ↦ ⟨follows_alloc h₁.sound, fun htype ↦ ⟨htype, ?_⟩⟩
  rw [hkind]

/-- Following an expression of a task brings in what the expression refers to. -/
theorem ensures_followExpr (h : s.AtExpr x σ id e) :
    Ensures (followExpr σ e) s fun _ s' ↦ s.Follows s' ∧ s'.Covers σ e := by
  cases hkind : e.kind
  case call => exact ensures_followCall h hkind
  case funcRef => exact ensures_followFuncRef h hkind
  case methodCall => exact ensures_followMethodCall h hkind
  case operator => exact ensures_followOperator h hkind
  case member => exact ensures_followMember h hkind
  case construct => exact ensures_followConstruct h hkind
  case alloc => exact ensures_followAlloc h hkind
  all_goals
    unfold followExpr
    rw [hkind]
    refine ensures_behindType h fun s₁ h₁ ↦ ⟨.refl h₁.sound, fun htype ↦ ⟨htype, ?_⟩⟩
    simp only [hkind]

end Followed

/-- Following what a walk met brings in what every expression on it refers to. -/
theorem ensures_followWalk (hs : s.Sound) {x : TaskId} {σ : List Handle} {w : Walked}
    (hx : s.store.Reached s.store.Mentions x) (hσ : s.store.scope? x = some σ)
    (hcode : w.ended = .ok () → ∀ id e, Visit.expr id e ∈ w.visits → s.store.InCode x id e) :
    Ensures (followWalk σ w) s fun _ s' ↦
      s.Follows s' ∧ w.ended = .ok () ∧ ∀ id e, Visit.expr id e ∈ w.visits → s'.Covers σ e := by
  unfold followWalk
  rw [Ensures, Stage.meets_bind]
  cases hended : w.ended with
  | error _ => exact Stage.ensures_true
  | ok _ =>
    refine (Stage.meets_forIn (fun done _ s' ↦ s.Follows s' ∧
      ∀ id e, Visit.expr id e ∈ done → s'.Covers σ e) ⟨.refl hs, by simp⟩ ?_).imp ?_
    · rintro done v rest _ s₁ hsplit ⟨hf₁, hdone⟩
      cases v with
      | stmt =>
        refine ⟨_, rfl, hf₁, fun id e he ↦ ?_⟩
        obtain he | he := List.mem_append.1 he
        · exact hdone id e he
        · cases List.mem_singleton.1 he
      | expr id e =>
        have he : s.store.InCode x id e := hcode hended id e (by rw [hsplit]; simp)
        rw [Stage.meets_bind]
        refine (ensures_followExpr (hf₁.atExpr ⟨hs, hx, hσ, he⟩)).imp ?_
        rintro _ s₂ ⟨hf₂, hcovers⟩
        refine ⟨_, rfl, hf₁.trans hf₂, fun id' e' he' ↦ ?_⟩
        obtain he' | he' := List.mem_append.1 he'
        · exact hf₂.covers (hdone id' e' he')
        · cases List.mem_singleton.1 he'
          exact hcovers
    · rintro _ s' ⟨hf, hall⟩
      exact ⟨hf, rfl, hall⟩

end Scheduler

end WasmBackend
