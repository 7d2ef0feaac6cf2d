import Mathlib
import WasmBackend.Types.Store

/-!
# How the store of types grows

The store only ever gets more applications, builds the types of those it has, and fills in layouts.
So whatever is read off it stays true: the handle of an application, the handle that a type
expression stands for, and what the type of a handle is made of.  `denote` reads a type expression
without making anything, and `Fits` says what a built type owes to its application.
-/

namespace WasmBackend

/-- Looking up every element of a list succeeds when each has its value. -/
theorem mapM_eq_some_iff {α β : Type} {f : α → Option β} {l : List α} {l' : List β} :
    l.mapM f = some l' ↔ List.Forall₂ (fun a b ↦ f a = some b) l l' := by
  induction l generalizing l' with
  | nil =>
    rw [List.mapM_nil]
    constructor
    · rintro ⟨⟩
      exact .nil
    · rintro ⟨⟩
      rfl
  | cons a l ih =>
    rw [List.mapM_cons]
    constructor
    · intro h
      obtain ⟨b, hb, bs, hbs, rfl⟩ : ∃ b, f a = some b ∧ ∃ bs, l.mapM f = some bs ∧ b :: bs = l' := by
        simpa [Option.bind_eq_some_iff] using h
      exact .cons hb (ih.1 hbs)
    · rintro (_ | ⟨hb, hbs⟩)
      rw [hb, ih.2 hbs]
      rfl

theorem mapM_some_mono {α β : Type} {f g : α → Option β} {l : List α} {l' : List β}
    (hfg : ∀ a b, f a = some b → g a = some b) (h : l.mapM f = some l') : l.mapM g = some l' :=
  mapM_eq_some_iff.2 ((mapM_eq_some_iff.1 h).imp hfg)

/-- The parts of a type that its layout does not touch. -/
def ConcreteType.core (t : ConcreteType) : ConcreteType :=
  { t with
    members := t.members.map fun m ↦ { m with offset := 0, slotIndex := 0 }
    size := 0
    layout := []
    resolved := false }

namespace TypeStore

/-- The type of a handle, if it is built. -/
def type? (s : TypeStore) (h : Handle) : Option ConcreteType :=
  if h = 0 then some .void else (s.application? h).bind Application.type

/-- The same applications under the same handles, and perhaps more. -/
structure Keeps (s s' : TypeStore) : Prop where
  program : s'.program = s.program
  templates : s'.templates = s.templates
  application : ∀ (i : Nat) (a : Application), s.applications[i]? = some a →
    ∃ a', s'.applications[i]? = some a' ∧ a'.template = a.template ∧ a'.args = a.args
  fresh : ∀ (i : Nat) (a : Application), s'.applications[i]? = some a → s.applications.size ≤ i →
    s'.template? a.template.identity = some a.template

/-- The same store later on: a built type stays, but for a layout that it may still get. -/
structure Extends (s s' : TypeStore) : Prop extends s.Keeps s' where
  type : ∀ h t, s.type? h = some t →
    ∃ t', s'.type? h = some t' ∧ t'.core = t.core ∧ (t.resolved → t' = t)

variable {s s' s'' : TypeStore} {h : Handle}

theorem Keeps.template? (hk : s.Keeps s') (identity : Text) :
    s'.template? identity = s.template? identity := by
  unfold TypeStore.template?
  rw [hk.templates]

theorem Keeps.trans (h₁ : s.Keeps s') (h₂ : s'.Keeps s'') : s.Keeps s'' where
  program := h₂.program.trans h₁.program
  templates := h₂.templates.trans h₁.templates
  application := by
    intro i a ha
    obtain ⟨a', ha', htemplate', hargs'⟩ := h₁.application i a ha
    obtain ⟨a'', ha'', htemplate'', hargs''⟩ := h₂.application i a' ha'
    exact ⟨a'', ha'', htemplate''.trans htemplate', hargs''.trans hargs'⟩
  fresh := by
    intro i a ha hi
    by_cases hi' : i < s'.applications.size
    · have ha' := Array.getElem?_eq_getElem hi'
      obtain ⟨b, hb, htemplate, -⟩ := h₂.application i _ ha'
      cases ha.symm.trans hb
      rw [htemplate, h₂.template?]
      exact h₁.fresh i _ ha' hi
    · exact h₂.fresh i a ha (Nat.not_lt.1 hi')

/-- Every application is of the template found under its identity. -/
def Regular (s : TypeStore) : Prop :=
  ∀ (i : Nat) (a : Application), s.applications[i]? = some a →
    s.template? a.template.identity = some a.template

theorem Keeps.regular (hk : s.Keeps s') (hs : s.Regular) : s'.Regular := by
  intro i a ha
  by_cases hi : i < s.applications.size
  · have hold := Array.getElem?_eq_getElem hi
    obtain ⟨b, hb, htemplate, -⟩ := hk.application i _ hold
    cases ha.symm.trans hb
    rw [htemplate, hk.template?]
    exact hs i _ hold
  · exact hk.fresh i a ha (Nat.not_lt.1 hi)

theorem Extends.refl (s : TypeStore) : s.Extends s where
  program := rfl
  templates := rfl
  application := fun _ a ha ↦ ⟨a, ha, rfl, rfl⟩
  fresh := by
    intro i a ha hi
    exact absurd (Array.getElem?_eq_some_iff.1 ha).1 (Nat.not_lt.2 hi)
  type := fun _ t ht ↦ ⟨t, ht, rfl, fun _ ↦ rfl⟩

theorem Extends.trans (h₁ : s.Extends s') (h₂ : s'.Extends s'') : s.Extends s'' where
  toKeeps := h₁.toKeeps.trans h₂.toKeeps
  type := by
    intro h t ht
    obtain ⟨t', ht', hcore', hres'⟩ := h₁.type h t ht
    obtain ⟨t'', ht'', hcore'', hres''⟩ := h₂.type h t' ht'
    refine ⟨t'', ht'', hcore''.trans hcore', fun hr ↦ ?_⟩
    have htt' := hres' hr
    subst htt'
    exact hres'' hr

theorem application?_eq_some {a : Application} :
    s.application? h = some a ↔ h ≠ 0 ∧ s.applications[h - 1]? = some a := by
  unfold application?
  split <;> simp_all

theorem type?_eq {a : Application} (ha : s.application? h = some a) : s.type? h = a.type := by
  simp [type?, (application?_eq_some.1 ha).1, ha]

theorem ne_zero_of_type? {t : ConcreteType} (ht : s.type? h = some t) (hvoid : t ≠ .void) :
    h ≠ 0 := by
  rintro rfl
  exact hvoid (Option.some.inj ht).symm

theorem Keeps.application? (hk : s.Keeps s') {a : Application} (ha : s.application? h = some a) :
    ∃ a', s'.application? h = some a' ∧ a'.template = a.template ∧ a'.args = a.args := by
  obtain ⟨hh, ha⟩ := application?_eq_some.1 ha
  obtain ⟨a', ha', hsame⟩ := hk.application _ a ha
  exact ⟨a', application?_eq_some.2 ⟨hh, ha'⟩, hsame⟩

theorem Keeps.size_le (hk : s.Keeps s') : s.applications.size ≤ s'.applications.size := by
  by_contra hlt
  obtain ⟨a', ha', -⟩ := hk.application s'.applications.size
    (s.applications[s'.applications.size]) (Array.getElem?_eq_getElem (by omega))
  simp at ha'

theorem Keeps.handle? (hk : s.Keeps s') {identity : Text} {args : List Handle}
    (hh : s.handle? identity args = some h) : s'.handle? identity args = some h := by
  unfold TypeStore.handle? at *
  obtain ⟨i, hi, rfl⟩ := Option.map_eq_some_iff.1 hh
  refine Option.map_eq_some_iff.2 ⟨i, ?_, rfl⟩
  obtain ⟨hlt, hp, hmin⟩ := Array.findIdx?_eq_some_iff_getElem.1 hi
  have same : ∀ j (hj : j < s.applications.size), ∃ hj' : j < s'.applications.size,
      s'.applications[j].template = s.applications[j].template ∧
        s'.applications[j].args = s.applications[j].args := by
    intro j hj
    obtain ⟨a', ha', hsame⟩ := hk.application j _ (Array.getElem?_eq_getElem hj)
    obtain ⟨hj', rfl⟩ := Array.getElem?_eq_some_iff.1 ha'
    exact ⟨hj', hsame⟩
  obtain ⟨hlt', htemplate, hargs⟩ := same i hlt
  refine Array.findIdx?_eq_some_iff_getElem.2 ⟨hlt', by rw [htemplate, hargs]; exact hp, ?_⟩
  intro j hji
  obtain ⟨_, htemplate, hargs⟩ := same j (hji.trans hlt)
  rw [htemplate, hargs]
  exact hmin j hji

theorem kindOf_eq {a : Application} (ha : s.application? h = some a) :
    s.kindOf h = .ok (a.template.kind s.program) := by
  simp [TypeStore.kindOf, (application?_eq_some.1 ha).1, ha]

theorem Keeps.kindOf (hk : s.Keeps s') {k : TypeKind} (hkind : s.kindOf h = .ok k) :
    s'.kindOf h = .ok k := by
  cases ha : s.application? h with
  | none =>
    unfold TypeStore.kindOf at *
    rw [ha] at hkind
    split at hkind
    · rw [if_pos ‹_›, hkind]
    · cases hkind
  | some a =>
    obtain ⟨a', ha', htemplate, -⟩ := hk.application? ha
    rw [kindOf_eq ha] at hkind
    rw [kindOf_eq ha', htemplate, hk.program, hkind]

/-! ## What a type expression stands for -/

/-- The handle of a type expression at most `depth` deep, if all it needs has been made. -/
def denoteWithin (s : TypeStore) : Nat → TypeId → List Handle → Option Handle
  | 0, _, _ => none
  | depth + 1, id, scope =>
    if id = 0 then some Handle.void
    else
      match s.program.typeExpr? id with
      | none => none
      | some t =>
        match t.kind with
        | .void => some Handle.void
        | .prim => if t.prim = .none then some Handle.void else s.handle? (primIdentity t.prim) []
        | .named => do
          let args ← t.args.mapM fun a ↦ s.denoteWithin depth a scope
          s.handle? (declIdentity t.decl) args
        | .param => scope[t.index.toNat]?
        | .pointer => do
          let elem ← s.denoteWithin depth t.elem scope
          s.handle? "ptr" [elem]
        | .function => do
          let params ← t.args.mapM fun a ↦ s.denoteWithin depth a scope
          let result ← s.denoteWithin depth t.elem scope
          s.handle? "fn" (params ++ [result])
        | .unknown _ _ => none

/-- The handle of a type expression, if all it needs has been made. -/
def denote (s : TypeStore) (id : TypeId) (scope : List Handle) : Option Handle :=
  s.denoteWithin (s.program.types.size + 2) id scope

def denoteAll (s : TypeStore) (ids : List TypeId) (scope : List Handle) : Option (List Handle) :=
  ids.mapM fun t ↦ s.denote t scope

theorem Keeps.denoteWithin (hkeeps : s.Keeps s') {scope : List Handle} {depth : Nat} {id : TypeId}
    {h : Handle} (hd : s.denoteWithin depth id scope = some h) :
    s'.denoteWithin depth id scope = some h := by
  induction depth generalizing id h with
  | zero => simp [TypeStore.denoteWithin] at hd
  | succ depth ih =>
    unfold TypeStore.denoteWithin at hd ⊢
    rw [hkeeps.program]
    split
    · simpa [*] using hd
    rename_i hid
    rw [if_neg hid] at hd
    cases ht : s.program.typeExpr? id with
    | none => rw [ht] at hd; exact hd
    | some t =>
      simp only [ht] at hd ⊢
      cases hk : t.kind <;> simp only [hk] at hd ⊢
      case void => exact hd
      case prim =>
        split
        · rwa [if_pos ‹_›] at hd
        · rw [if_neg ‹_›] at hd
          exact hkeeps.handle? hd
      case named =>
        obtain ⟨args, hargs, hh⟩ := Option.bind_eq_some_iff.1 hd
        exact Option.bind_eq_some_iff.2
          ⟨args, mapM_some_mono (fun _ _ ↦ ih) hargs, hkeeps.handle? hh⟩
      case param => exact hd
      case pointer =>
        obtain ⟨elem, helem, hh⟩ := Option.bind_eq_some_iff.1 hd
        exact Option.bind_eq_some_iff.2 ⟨elem, ih helem, hkeeps.handle? hh⟩
      case function =>
        obtain ⟨params, hparams, hh⟩ := Option.bind_eq_some_iff.1 hd
        obtain ⟨result, hresult, hh⟩ := Option.bind_eq_some_iff.1 hh
        exact Option.bind_eq_some_iff.2 ⟨params, mapM_some_mono (fun _ _ ↦ ih) hparams,
          Option.bind_eq_some_iff.2 ⟨result, ih hresult, hkeeps.handle? hh⟩⟩
      case unknown => exact hd

theorem Keeps.denote (hkeeps : s.Keeps s') {scope : List Handle} {id : TypeId}
    (hd : s.denote id scope = some h) : s'.denote id scope = some h := by
  unfold TypeStore.denote at *
  rw [hkeeps.program]
  exact hkeeps.denoteWithin hd

theorem Keeps.denoteAll (hkeeps : s.Keeps s') {scope : List Handle} {ids : List TypeId}
    {hs : List Handle} (hd : s.denoteAll ids scope = some hs) : s'.denoteAll ids scope = some hs :=
  mapM_some_mono (fun _ _ ↦ hkeeps.denote) hd

/-! ## What a type is made of -/

end TypeStore

namespace Application

/-- The type a pointer points to. -/
def elem (a : Application) : Handle :=
  match a.template with
  | .pointer => a.args.headD Handle.void
  | _ => Handle.void

/-- The parameters of a function type. -/
def params (a : Application) : List Handle :=
  match a.template with
  | .function => a.args.dropLast
  | _ => []

/-- The result of a function type. -/
def result (a : Application) : Handle :=
  match a.template with
  | .function => a.args.getLastD Handle.void
  | _ => Handle.void

/-- The declaration of an aggregate; other types have nothing declared. -/
def aggregate (p : Program) (a : Application) : AggregateData :=
  match a.template with
  | .aggregate id => ((p.decl? id).bind Decl.aggregate).getD {}
  | _ => {}

end Application

/-- What a built type owes to its application, whatever its layout. -/
structure ConcreteType.Fits (s : TypeStore) (a : Application) (t : ConcreteType) : Prop where
  args : t.args = a.args
  kind : t.kind = a.template.kind s.program
  elem : t.elem = a.elem
  params : t.params = a.params
  result : t.result = a.result
  members : List.Forall₂ (fun f m ↦ m.name = f.name ∧ s.denote f.type a.args = some m.type)
    (a.aggregate s.program).fields t.members
  methods : TypeStore.methodTable s.program (a.aggregate s.program).methods = .ok t.methods
  operators : TypeStore.operatorTable s.program (a.aggregate s.program).operators = .ok t.operators
  init : t.init = (a.aggregate s.program).init

namespace TypeStore

/-- Every built type is that of its application. -/
def Faithful (s : TypeStore) : Prop :=
  ∀ h a t, s.application? h = some a → a.type = some t → t.handle = h ∧ t.Fits s a

end TypeStore

namespace ConcreteType

theorem Fits.mono {s s' : TypeStore} {t : ConcreteType} {a a' : Application}
    (hfits : t.Fits s a) (hkeeps : s.Keeps s') (htemplate : a'.template = a.template)
    (hsame : a'.args = a.args) : t.Fits s' a' := by
  obtain ⟨hargs, hkind, helem, hparams, hresult, hmembers, hmethods, hoperators, hinit⟩ := hfits
  have haggregate : a'.aggregate s'.program = a.aggregate s.program := by
    simp only [Application.aggregate, htemplate, hkeeps.program]
  constructor
  · rw [hargs, hsame]
  · rw [hkind, htemplate, hkeeps.program]
  · simp only [helem, Application.elem, htemplate, hsame]
  · simp only [hparams, Application.params, htemplate, hsame]
  · simp only [hresult, Application.result, htemplate, hsame]
  · rw [haggregate, hsame]
    exact hmembers.imp fun f m h ↦ ⟨h.1, hkeeps.denote h.2⟩
  · rw [haggregate, hkeeps.program, hmethods]
  · rw [haggregate, hkeeps.program, hoperators]
  · rw [hinit, haggregate]

/-- A layout changes nothing that the application asks for. -/
theorem Fits.congr_core {s : TypeStore} {t t' : ConcreteType} {a : Application} (hfits : t.Fits s a)
    (hcore : t'.core = t.core) : t'.Fits s a := by
  have same : t'.members.map (fun m ↦ (m.name, m.type)) = t.members.map fun m ↦ (m.name, m.type) := by
    have := congrArg (fun c ↦ c.members.map fun m ↦ (m.name, m.type)) hcore
    simpa only [core, List.map_map, Function.comp_def] using this
  obtain ⟨hargs, hkind, helem, hparams, hresult, hmembers, hmethods, hoperators, hinit⟩ := hfits
  constructor
  · exact (congrArg ConcreteType.args hcore).trans hargs
  · exact (congrArg ConcreteType.kind hcore).trans hkind
  · exact (congrArg ConcreteType.elem hcore).trans helem
  · exact (congrArg ConcreteType.params hcore).trans hparams
  · exact (congrArg ConcreteType.result hcore).trans hresult
  · have named : List.Forall₂
        (fun f (m : Text × Handle) ↦ m.1 = f.name ∧ s.denote f.type a.args = some m.2)
        (a.aggregate s.program).fields (t'.members.map fun m ↦ (m.name, m.type)) := by
      rw [same]
      exact List.forall₂_map_right_iff.2 hmembers
    exact List.forall₂_map_right_iff.1 named
  · exact hmethods.trans (congrArg (fun c ↦ Except.ok c.methods) hcore.symm)
  · exact hoperators.trans (congrArg (fun c ↦ Except.ok c.operators) hcore.symm)
  · exact (congrArg ConcreteType.init hcore).trans hinit

end ConcreteType

namespace TypeStore

variable {s s' s'' : TypeStore} {h : Handle}

/-- The same store later on, with every type still that of its application. -/
structure Advances (s s' : TypeStore) : Prop extends s.Extends s' where
  faithful : s.Faithful → s'.Faithful

theorem Advances.refl (s : TypeStore) : s.Advances s :=
  ⟨.refl s, id⟩

theorem Advances.trans (h₁ : s.Advances s') (h₂ : s'.Advances s'') : s.Advances s'' :=
  ⟨h₁.toExtends.trans h₂.toExtends, h₂.faithful ∘ h₁.faithful⟩

theorem Faithful.fits (hs : s.Faithful) {a : Application} {t : ConcreteType}
    (ha : s.application? h = some a) (ht : s.type? h = some t) : t.handle = h ∧ t.Fits s a :=
  hs h a t ha (type?_eq ha ▸ ht)

theorem Faithful.handle (hs : s.Faithful) {t : ConcreteType} (ht : s.type? h = some t) :
    t.handle = h := by
  unfold type? at ht
  split at ht
  · cases ht
    exact Eq.symm ‹_›
  · obtain ⟨a, ha, hat⟩ := Option.bind_eq_some_iff.1 ht
    exact (hs h a t ha hat).1

theorem Faithful.kindOf (hs : s.Faithful) {t : ConcreteType} (ht : s.type? h = some t) :
    s.kindOf h = .ok t.kind := by
  unfold type? at ht
  split at ht
  · cases ht
    simp [TypeStore.kindOf, *, ConcreteType.void]
  · obtain ⟨a, ha, hat⟩ := Option.bind_eq_some_iff.1 ht
    rw [kindOf_eq ha, (hs h a t ha hat).2.kind]

end TypeStore

end WasmBackend
