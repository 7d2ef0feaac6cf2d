import WasmBackend.Proofs.Types.Building
import WasmBackend.Proofs.Types.Templates

/-!
# Handles and their arguments

Handles are given out in the order in which applications are made, and an application is made once,
after its arguments.  So the arguments of an application have smaller handles, and no two
applications are of one template to the same arguments.  Every computation over the store keeps
this, also one that fails half way; one that returns changes nothing else of what was there.
Resolving a type expression fails only if the expression names something that is not there.
-/

namespace WasmBackend

/-- A type expression at most `depth` deep names what there is: known primitives, aggregates with as
many arguments as they have parameters, and parameters below `params`. -/
def Program.ResolvesWithin (p : Program) (params : Nat) : Nat → TypeId → Prop
  | 0, _ => False
  | depth + 1, id =>
    id = 0 ∨ ∃ t, p.typeExpr? id = some t ∧
      match t.kind with
      | .void => True
      | .prim => t.prim = .none ∨ (Template.prim t.prim).Native p
      | .named => (Template.aggregate t.decl).Native p ∧
          (Template.aggregate t.decl).arity p = some (t.args.length : Int) ∧
          ∀ a ∈ t.args, p.ResolvesWithin params depth a
      | .param => t.index.toNat < params
      | .pointer => p.ResolvesWithin params depth t.elem
      | .function => (∀ a ∈ t.args, p.ResolvesWithin params depth a) ∧
          p.ResolvesWithin params depth t.elem
      | .unknown _ _ => False

theorem Program.resolvesWithin_succ {p : Program} {params depth : Nat} {id : TypeId} {t : TypeExpr}
    (hid : id ≠ 0) (ht : p.typeExpr? id = some t) :
    p.ResolvesWithin params (depth + 1) id ↔
      match t.kind with
      | .void => True
      | .prim => t.prim = .none ∨ (Template.prim t.prim).Native p
      | .named => (Template.aggregate t.decl).Native p ∧
          (Template.aggregate t.decl).arity p = some (t.args.length : Int) ∧
          ∀ a ∈ t.args, p.ResolvesWithin params depth a
      | .param => t.index.toNat < params
      | .pointer => p.ResolvesWithin params depth t.elem
      | .function => (∀ a ∈ t.args, p.ResolvesWithin params depth a) ∧
          p.ResolvesWithin params depth t.elem
      | .unknown _ _ => False := by
  simp [Program.ResolvesWithin, hid, ht]

/-- A type expression names what there is. -/
def Program.Resolves (p : Program) (params : Nat) (id : TypeId) : Prop :=
  p.ResolvesWithin params (p.types.size + 2) id

/-- What a type has whatever its layout: its members are of types there are, and those of struct
type are the ones it contains by value. -/
structure ConcreteType.Shaped (s : TypeStore) (a : Application) (t : ConcreteType) : Prop where
  prim : ∀ q, a.template = .prim q → t.prim = q
  known : ∀ m ∈ t.members, ∃ k, s.kindOf m.type = .ok k
  mem_deps : ∀ g, g ∈ t.deps ↔ ∃ m ∈ t.members, m.type = g ∧ s.kindOf g = .ok .struct

/-- What a type has when it is built. -/
structure ConcreteType.Raw (s : TypeStore) (a : Application) (t : ConcreteType) : Prop
    extends t.Shaped s a where
  unresolved : t.kind.isAggregate → t.resolved = false
  unplaced : ∀ m ∈ t.members, m.offset = 0

namespace ConcreteType

variable {s s' : TypeStore} {a a' : Application} {t : ConcreteType}

theorem Shaped.mono (ht : t.Shaped s a) (hk : s.Keeps s') (htemplate : a'.template = a.template) :
    t.Shaped s' a' where
  prim := fun q hq ↦ ht.prim q (htemplate ▸ hq)
  known := fun m hm ↦ (ht.known m hm).imp fun _ ↦ hk.kindOf
  mem_deps := by
    intro g
    rw [ht.mem_deps]
    refine exists_congr fun m ↦ and_congr_right fun hm ↦ and_congr_right ?_
    rintro rfl
    obtain ⟨k, hk'⟩ := ht.known m hm
    rw [hk', hk.kindOf hk']

theorem Raw.mono (ht : t.Raw s a) (hk : s.Keeps s') (htemplate : a'.template = a.template) :
    t.Raw s' a' :=
  ⟨ht.toShaped.mono hk htemplate, ht.unresolved, ht.unplaced⟩

end ConcreteType

namespace TypeStore

open Stage (Leaves leaves_pure leaves_throw leaves_get_bind leaves_mapM)

variable {s s' s'' : TypeStore} {h : Handle} {p : Program}

/-! ## Handles in use -/

theorem zero_lt_size (s : TypeStore) : 0 < s.size :=
  Nat.succ_pos _

theorem lt_size {a : Application} (ha : s.application? h = some a) : h < s.size := by
  obtain ⟨hh, ha⟩ := application?_eq_some.1 ha
  exact Nat.lt_succ_of_le (Nat.le_of_pred_lt (Array.getElem?_eq_some_iff.1 ha).1)

theorem exists_application (hh : h ≠ 0) (hlt : h < s.size) : ∃ a, s.application? h = some a :=
  ⟨_, application?_eq_some.2 ⟨hh, Array.getElem?_eq_getElem
    (Nat.sub_one_lt_of_le (Nat.pos_of_ne_zero hh) (Nat.le_of_lt_succ hlt))⟩⟩

theorem exists_of_type? {t : ConcreteType} (ht : s.type? h = some t) (hh : h ≠ 0) :
    ∃ a, s.application? h = some a ∧ a.type = some t :=
  Option.bind_eq_some_iff.1 (by simpa [type?, hh] using ht)

theorem lt_size_of_type? {t : ConcreteType} (ht : s.type? h = some t) : h < s.size := by
  obtain rfl | hh := eq_or_ne h 0
  · exact s.zero_lt_size
  · obtain ⟨a, ha, -⟩ := exists_of_type? ht hh
    exact lt_size ha

theorem lt_size_of_kindOf {k : TypeKind} (hk : s.kindOf h = .ok k) : h < s.size := by
  obtain rfl | hh := eq_or_ne h 0
  · exact s.zero_lt_size
  · cases ha : s.application? h with
    | none => simp [kindOf, hh, ha] at hk
    | some a => exact lt_size ha

theorem Keeps.lt_size (hk : s.Keeps s') (hlt : h < s.size) : h < s'.size :=
  hlt.trans_le (Nat.succ_le_succ hk.size_le)

theorem Keeps.all_lt_size (hk : s.Keeps s') {hs : List Handle} (hlt : ∀ g ∈ hs, g < s.size) :
    ∀ g ∈ hs, g < s'.size :=
  fun g hg ↦ hk.lt_size (hlt g hg)

/-! ## Stores in order -/

/-- Arguments come before what is applied to them, and nothing is applied to the same twice. -/
structure Ordered (s : TypeStore) : Prop where
  args_lt : ∀ h a, s.application? h = some a → ∀ g ∈ a.args, g < h
  unique : ∀ h h' a a', s.application? h = some a → s.application? h' = some a' →
    a.template.identity = a'.template.identity → a.args = a'.args → h = h'

/-- A store with the templates of its program only, and its handles in order. -/
structure Standard (s : TypeStore) : Prop where
  templates : s.templates = (ofProgram s.program).templates
  regular : s.Regular
  ordered : s.Ordered

theorem standard_ofProgram (p : Program) : (ofProgram p).Standard where
  templates := rfl
  regular := by
    intro i a ha
    simp [ofProgram] at ha
  ordered := by constructor <;> intro h <;> simp [application?, ofProgram]

/-- The same store later on, with its handles still in order. -/
structure Follows (s s' : TypeStore) : Prop extends s.Keeps s' where
  ordered : s.Ordered → s'.Ordered

theorem Follows.refl (s : TypeStore) : s.Follows s :=
  ⟨(Extends.refl s).toKeeps, id⟩

theorem Follows.trans (h₁ : s.Follows s') (h₂ : s'.Follows s'') : s.Follows s'' :=
  ⟨h₁.toKeeps.trans h₂.toKeeps, h₂.ordered ∘ h₁.ordered⟩

theorem Follows.standard (hf : s.Follows s') (hs : s.Standard) : s'.Standard where
  templates := by rw [hf.templates, hf.program, hs.templates]
  regular := hf.regular hs.regular
  ordered := hf.ordered hs.ordered

/-- The same store with more applications and more types built, and nothing else changed. -/
structure Enlarges (s s' : TypeStore) : Prop extends s.Follows s' where
  type : ∀ g t, s.type? g = some t → s'.type? g = some t
  building : ∀ g a', s'.application? g = some a' → a'.building = true →
    ∃ a, s.application? g = some a ∧ a.building = true
  built : ∀ g a t, s'.application? g = some a → a.type = some t →
    s.type? g = some t ∨ t.Raw s' a

theorem Enlarges.refl (s : TypeStore) : s.Enlarges s where
  toFollows := .refl s
  type := fun _ _ h ↦ h
  building := fun _ a ha hb ↦ ⟨a, ha, hb⟩
  built := fun _ _ _ ha ht ↦ .inl ((type?_eq ha).trans ht)

theorem Enlarges.trans (h₁ : s.Enlarges s') (h₂ : s'.Enlarges s'') : s.Enlarges s'' where
  toFollows := h₁.toFollows.trans h₂.toFollows
  type := fun g t ht ↦ h₂.type g t (h₁.type g t ht)
  building := by
    intro g a'' ha'' hb
    obtain ⟨a', ha', hb'⟩ := h₂.building g a'' ha'' hb
    exact h₁.building g a' ha' hb'
  built := by
    intro g a'' t ha'' ht
    obtain hold | hraw := h₂.built g a'' t ha'' ht
    · obtain ⟨a', ha', ht'⟩ := exists_of_type? hold (application?_eq_some.1 ha'').1
      refine (h₁.built g a' t ha' ht').imp_right fun hraw ↦ ?_
      obtain ⟨b, hb, htemplate, -⟩ := h₂.application? ha'
      cases ha''.symm.trans hb
      exact hraw.mono h₂.toKeeps htemplate
    · exact .inr hraw

/-! ## Finding an application -/

theorem application?_of_handle? {identity : Text} {args : List Handle}
    (hh : s.handle? identity args = some h) :
    ∃ a, s.application? h = some a ∧ a.template.identity = identity ∧ a.args = args := by
  obtain ⟨i, hi, rfl⟩ := Option.map_eq_some_iff.1 hh
  obtain ⟨hlt, hp, -⟩ := Array.findIdx?_eq_some_iff_getElem.1 hi
  exact ⟨s.applications[i], application?_eq_some.2 ⟨i.succ_ne_zero, Array.getElem?_eq_getElem hlt⟩,
    by simpa using hp⟩

theorem ne_of_handle?_eq_none {identity : Text} {args : List Handle}
    (hnone : s.handle? identity args = none) {a : Application} (ha : s.application? h = some a)
    (hidentity : a.template.identity = identity) : a.args ≠ args := by
  intro hargs
  have hall := Array.findIdx?_eq_none_iff.1 (Option.map_eq_none_iff.1 hnone)
  have := hall a (Array.mem_of_getElem? (application?_eq_some.1 ha).2)
  simp [hidentity, hargs] at this

/-- The template of a native identity. -/
theorem Standard.template?_eq (hs : s.Standard) {t : Template} (ht : t.Native s.program) :
    s.template? t.identity = some t := by
  have hmem : t ∈ s.templates := hs.templates ▸ ht
  cases hfound : s.template? t.identity with
  | none => exact absurd (List.find?_eq_none.1 hfound t hmem) (by simp)
  | some t' =>
    have ht' : t'.Native s.program := by
      have := List.mem_of_find?_eq_some hfound
      rwa [hs.templates] at this
    rw [ht'.identity_injective ht (template?_identity hfound)]

theorem Standard.native (hs : s.Standard) {a : Application} (ha : s.application? h = some a) :
    a.template.Native s.program := by
  have hfound := hs.regular _ a (application?_eq_some.1 ha).2
  have := List.mem_of_find?_eq_some hfound
  rwa [hs.templates] at this

/-! ## Making handles -/

theorem application?_push (a : Application) (g : Handle) :
    TypeStore.application? { s with applications := s.applications.push a } g =
      if g = s.size then some a else s.application? g := by
  unfold application? size
  by_cases hg : g = 0
  · simp [hg]
  · by_cases hlast : g = s.applications.size + 1
    · simp [hlast]
    · simp only [hg, hlast, if_false, Array.getElem?_push]
      rw [if_neg fun he ↦ hlast ((Nat.sub_eq_iff_eq_add (Nat.pos_of_ne_zero hg)).1 he)]

theorem enlarges_push {a : Application}
    (htemplate : s.template? a.template.identity = some a.template) (htype : a.type = none)
    (hbuilding : a.building = false) (hargs : ∀ g ∈ a.args, g < s.size)
    (hnone : s.handle? a.template.identity a.args = none) :
    s.Enlarges { s with applications := s.applications.push a } where
  toKeeps := (advances_push htemplate htype).toKeeps
  ordered := by
    intro hs
    have old {g : Handle} {b : Application} (hb : s.application? g = some b) :
        b.template.identity = a.template.identity → b.args ≠ a.args :=
      ne_of_handle?_eq_none hnone hb
    constructor
    · intro h b hb
      rw [application?_push] at hb
      split at hb
      · cases hb
        subst h
        exact hargs
      · exact hs.args_lt h b hb
    · intro h h' b b' hb hb' hidentity hsame
      rw [application?_push] at hb hb'
      split at hb <;> split at hb'
      · subst h h'
        rfl
      · cases hb
        exact absurd hsame.symm (old hb' hidentity.symm)
      · cases hb'
        exact absurd hsame (old hb hidentity)
      · exact hs.unique h h' b b' hb hb' hidentity hsame
  type := by
    intro g t ht
    obtain rfl | hg := eq_or_ne g 0
    · exact ht
    obtain ⟨b, hb, hbt⟩ := exists_of_type? ht hg
    have hold :
        TypeStore.application? { s with applications := s.applications.push a } g = some b := by
      rw [application?_push, if_neg (lt_size hb).ne, hb]
    rw [type?_eq hold, hbt]
  building := by
    intro g b hb hbuild
    rw [application?_push] at hb
    split at hb
    · cases hb
      simp [hbuilding] at hbuild
    · exact ⟨b, hb, hbuild⟩
  built := by
    intro g b t hb ht
    rw [application?_push] at hb
    split at hb
    · cases hb
      simp [htype] at ht
    · exact .inl ((type?_eq hb).trans ht)

/-- There is a template of this identity, and it takes so many arguments. -/
def Accepts (s : TypeStore) (identity : Text) (count : Nat) : Prop :=
  ∃ t, s.template? identity = some t ∧ ∀ n, t.arity s.program = some n → n = count

theorem Standard.accepts (hs : s.Standard) {t : Template} {count : Nat} (ht : t.Native s.program)
    (harity : ∀ n, t.arity s.program = some n → n = count) : s.Accepts t.identity count :=
  ⟨t, hs.template?_eq ht, harity⟩

/-- What making a handle leaves behind. -/
abbrev Makes (x : M Handle) (s : TypeStore) (err : Failure → Prop) : Prop :=
  Leaves x s s.Follows err fun h s' ↦ s.Enlarges s' ∧ h < s'.size

theorem makes_void {err : Failure → Prop} : Makes (pure Handle.void) s err :=
  leaves_pure (.refl s) ⟨.refl s, s.zero_lt_size⟩

theorem makes_specialize {identity : Text} {args : List Handle} (hargs : ∀ g ∈ args, g < s.size) :
    Makes (specialize identity args) s fun _ ↦ ¬s.Accepts identity args.length := by
  unfold specialize
  refine leaves_get_bind ?_
  cases ht : s.template? identity with
  | none =>
    refine leaves_throw (.refl s) ?_
    rintro ⟨t, ht', -⟩
    simp [ht] at ht'
  | some t =>
    -- the handle is looked for only when the number of arguments is not refused
    have hrefused : ∀ arity, t.arity s.program = some arity → arity ≠ args.length →
        ¬s.Accepts identity args.length := by
      rintro arity harity hlen ⟨t', ht', hall⟩
      obtain rfl : t = t' := Option.some.inj (ht.symm.trans ht')
      exact hlen (hall arity harity)
    cases hh : s.handle? identity args with
    | some h =>
      obtain ⟨a, ha, -⟩ := application?_of_handle? hh
      have found : Makes (pure h) s fun _ ↦ ¬s.Accepts identity args.length :=
        leaves_pure (.refl s) ⟨.refl s, lt_size ha⟩
      cases harity : t.arity s.program with
      | none => simpa only [harity, hh] using found
      | some arity =>
        by_cases hlen : arity = args.length
        · simpa only [harity, hh, if_neg (not_not.2 hlen)] using found
        · simp only [harity, if_pos hlen]
          exact ⟨.refl s, hrefused arity harity hlen⟩
    | none =>
      have hidentity := template?_identity ht
      have hpush := enlarges_push (s := s) (a := { template := t, args := args })
        (by rw [hidentity]; exact ht) rfl rfl hargs (by rw [hidentity]; exact hh)
      have pushed : Makes (do
            set { s with applications := s.applications.push { template := t, args := args } }
            return s.size) s fun _ ↦ ¬s.Accepts identity args.length :=
        ⟨hpush.toFollows, hpush, by simp [size]⟩
      cases harity : t.arity s.program with
      | none => simpa only [harity, hh] using pushed
      | some arity =>
        by_cases hlen : arity = args.length
        · simpa only [harity, hh, if_neg (not_not.2 hlen)] using pushed
        · simp only [harity, if_pos hlen]
          exact ⟨.refl s, hrefused arity harity hlen⟩

theorem makes_prim (hs : s.Standard) (q : Prim) :
    Makes (prim q) s fun _ ↦ ¬(q = .none ∨ (Template.prim q).Native s.program) := by
  unfold prim
  split
  · exact makes_void
  · refine (makes_specialize (by simp)).mono (fun _ h ↦ h) (fun _ hrefused ↦ ?_) fun _ _ h ↦ h
    rintro (h | h)
    · contradiction
    · exact hrefused (hs.accepts h fun n hn ↦ by simpa [Template.arity] using hn.symm)

theorem native_pointer (p : Program) : Template.pointer.Native p :=
  List.mem_append_left _ (by simp [builtins])

theorem native_function (p : Program) : Template.function.Native p :=
  List.mem_append_left _ (by simp [builtins])

theorem makes_pointerTo (hs : s.Standard) {elem : Handle} (helem : elem < s.size)
    {err : Failure → Prop} : Makes (pointerTo elem) s err := by
  refine (makes_specialize (by simpa using helem)).mono (fun _ h ↦ h) (fun _ hrefused ↦ ?_)
    fun _ _ h ↦ h
  exact absurd (hs.accepts (native_pointer _) fun n hn ↦ by simpa [Template.arity] using hn.symm)
    hrefused

theorem makes_functionType (hs : s.Standard) {params : List Handle} {result : Handle}
    (hparams : ∀ g ∈ params, g < s.size) (hresult : result < s.size) {err : Failure → Prop} :
    Makes (functionType params result) s err := by
  refine (makes_specialize ?_).mono (fun _ h ↦ h) (fun _ hrefused ↦ ?_) fun _ _ h ↦ h
  · intro g hg
    obtain hg | hg := List.mem_append.1 hg
    · exact hparams g hg
    · exact List.mem_singleton.1 hg ▸ hresult
  · exact absurd (hs.accepts (native_function _) fun n hn ↦ by simp [Template.arity] at hn) hrefused

theorem makes_instantiate (hs : s.Standard) {decl : DeclId} {args : List Handle}
    (hargs : ∀ g ∈ args, g < s.size) :
    Makes (instantiate decl args) s fun _ ↦ ¬((Template.aggregate decl).Native s.program ∧
      (Template.aggregate decl).arity s.program = some (args.length : Int)) := by
  unfold instantiate
  refine leaves_get_bind ?_
  split
  · refine (makes_specialize hargs).mono (fun _ h ↦ h) (fun _ hrefused ↦ ?_) fun _ _ h ↦ h
    rintro ⟨hnative, harity⟩
    exact hrefused (hs.accepts hnative fun n hn ↦ Option.some.inj (hn.symm.trans harity))
  · rename_i hany
    refine leaves_throw (.refl s) fun h ↦ hany ?_
    have hmem : Template.aggregate decl ∈ s.templates := hs.templates ▸ h.1
    exact List.any_eq_true.2 ⟨_, hmem, by simp⟩

/-- Resolving fails only on an expression that names something that is not there. -/
theorem makes_resolveWithin (hp : s.program = p) (hs : s.Standard) (depth : Nat) (id : TypeId)
    {scope : List Handle} (hscope : ∀ g ∈ scope, g < s.size) :
    Makes (resolveWithin depth id scope) s fun _ ↦ ¬p.ResolvesWithin scope.length depth id := by
  induction depth generalizing id s with
  | zero => exact leaves_throw (.refl s) not_false
  | succ depth ih =>
    have all (ids : List TypeId) {err : Failure → Prop}
        (herr : ∀ e, (¬∀ a ∈ ids, p.ResolvesWithin scope.length depth a) → err e) :
        Leaves (ids.mapM fun a ↦ resolveWithin depth a scope) s s.Follows err
          fun hs s' ↦ s.Enlarges s' ∧ List.Forall₂ (fun _ h ↦ h < s'.size) ids hs := by
      refine leaves_mapM Follows Enlarges (fun t _ h ↦ h < t.size) (fun t ↦ ⟨.refl t, .refl t⟩)
        (fun _ _ _ h ↦ h.toFollows.trans) (fun _ _ _ ↦ .trans)
        (fun _ _ _ _ h ↦ h.lt_size) fun a ha t ht ↦ ?_
      refine (ih (ht.program.trans hp) (ht.standard hs) a (ht.all_lt_size hscope)).mono
        (fun _ h ↦ h) (fun e hfail ↦ herr e fun hall ↦ hfail (hall a ha)) fun _ _ h ↦ h
    unfold resolveWithin
    by_cases hid : id = 0
    · simpa only [hid, if_true] using makes_void
    simp only [hid, if_false]
    refine leaves_get_bind ?_
    rw [hp]
    cases ht : p.typeExpr? id with
    | none =>
      refine leaves_throw (.refl s) ?_
      rintro (h | ⟨t, ht', -⟩)
      · exact hid h
      · simp [ht] at ht'
    | some t =>
      simp only [Program.resolvesWithin_succ hid ht]
      cases hk : t.kind <;> simp only
      case void => exact makes_void
      case prim => exact hp ▸ makes_prim hs t.prim
      case named =>
        refine (((all t.args fun _ hfail h ↦ hfail h.2.2)).mono (fun _ h ↦ h) (fun _ h ↦ h) ?_).bind
        rintro args s₁ ⟨h₁, hargs⟩
        refine (makes_instantiate (h₁.standard hs) fun g hg ↦ ?_).mono (fun _ ↦ h₁.toFollows.trans)
          (fun _ hfail h ↦ hfail ?_) fun _ _ h ↦ ⟨h₁.trans h.1, h.2⟩
        · obtain ⟨a, -, hlt⟩ := Stage.exists_of_mem_right hargs hg
          exact hlt
        · rw [h₁.program, hp, ← hargs.length_eq]
          exact ⟨h.1, h.2.1⟩
      case param =>
        cases hi : scope[t.index.toNat]? with
        | none =>
          refine leaves_throw (.refl s) fun hlt ↦ ?_
          exact absurd (List.getElem?_eq_none_iff.1 hi) (Nat.not_le.2 hlt)
        | some h => exact leaves_pure (.refl s) ⟨.refl s, hscope h (List.mem_of_getElem? hi)⟩
      case pointer =>
        refine ((ih hp hs t.elem hscope).mono (fun _ h ↦ h) (fun _ h ↦ h) ?_).bind
        rintro elem s₁ ⟨h₁, helem⟩
        exact (makes_pointerTo (h₁.standard hs) helem).mono (fun _ ↦ h₁.toFollows.trans)
          (fun _ h ↦ h) fun _ _ h ↦ ⟨h₁.trans h.1, h.2⟩
      case function =>
        refine ((all t.args fun _ hfail h ↦ hfail h.1).mono (fun _ h ↦ h) (fun _ h ↦ h) ?_).bind
        rintro params s₁ ⟨h₁, hparams⟩
        refine ((ih (h₁.program.trans hp) (h₁.standard hs) t.elem (h₁.all_lt_size hscope)).mono
          (fun _ ↦ h₁.toFollows.trans) (fun _ hfail h ↦ hfail h.2) ?_).bind
        rintro result s₂ ⟨h₂, hresult⟩
        have h₁₂ := h₁.trans h₂
        refine (makes_functionType (h₁₂.standard hs) (fun g hg ↦ ?_) hresult).mono
          (fun _ ↦ h₁₂.toFollows.trans) (fun _ h ↦ h) fun _ _ h ↦ ⟨h₁₂.trans h.1, h.2⟩
        obtain ⟨a, -, hlt⟩ := Stage.exists_of_mem_right hparams hg
        exact h₂.lt_size hlt
      case unknown => exact leaves_throw (.refl s) not_false

theorem makes_resolve (hs : s.Standard) (id : TypeId) {scope : List Handle}
    (hscope : ∀ g ∈ scope, g < s.size) :
    Makes (resolve id scope) s fun _ ↦ ¬s.program.Resolves scope.length id :=
  leaves_get_bind (makes_resolveWithin rfl hs _ id hscope)

end TypeStore

end WasmBackend
