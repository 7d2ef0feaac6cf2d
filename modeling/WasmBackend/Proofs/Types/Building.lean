import WasmBackend.Proofs.Stage
import WasmBackend.Proofs.Types.Growth

/-!
# Making and building types

Every computation over the store advances it.  Resolving a type expression leaves a store that
denotes the handle returned, and building a type leaves it in the store.  A symbol is made of names
of built types, so it stays the same from then on.
-/

namespace WasmBackend.TypeStore

open Stage (Ensures Meets)

variable {s s' : TypeStore} {h : Handle}

/-! ## Making handles -/

/-- Changes that touch no type that is built. -/
theorem Keeps.advances (hkeeps : s.Keeps s')
    (htype : ∀ h t, s'.type? h = some t ↔ s.type? h = some t) : s.Advances s' where
  toKeeps := hkeeps
  type := fun h t ht ↦ ⟨t, (htype h t).2 ht, rfl, fun _ ↦ rfl⟩
  faithful := by
    intro hs h a' t ha' ht
    have hold : s.type? h = some t := (htype h t).1 ((type?_eq ha').trans ht)
    have hh : h ≠ 0 := (application?_eq_some.1 ha').1
    obtain ⟨a, ha, hat⟩ := Option.bind_eq_some_iff.1 (by simpa [type?, hh] using hold)
    obtain ⟨b, hb, htemplate, hargs⟩ := hkeeps.application? ha
    rw [ha'] at hb
    cases hb
    exact ⟨(hs h a t ha hat).1, (hs h a t ha hat).2.mono hkeeps htemplate hargs⟩

theorem advances_push {a : Application} (htemplate : s.template? a.template.identity = some a.template)
    (ha : a.type = none) : s.Advances { s with applications := s.applications.push a } := by
  refine Keeps.advances ⟨rfl, rfl, fun i b hb ↦ ⟨b, ?_, rfl, rfl⟩, fun i b hb hi ↦ ?_⟩ fun h t ↦ ?_
  · have hi : i < s.applications.size := (Array.getElem?_eq_some_iff.1 hb).1
    rw [Array.getElem?_push, if_neg (by omega), hb]
  · have hlt : i < s.applications.size + 1 := by
      simpa using (Array.getElem?_eq_some_iff.1 hb).1
    obtain rfl : i = s.applications.size := by omega
    cases Array.getElem?_push_size.symm.trans hb
    exact htemplate
  · unfold type? application?
    by_cases hh : h = 0
    · simp [hh]
    · simp only [hh, if_false, Array.getElem?_push]
      split
      · simp [*]
      · rfl

theorem template?_identity {identity : Text} {t : Template} (h : s.template? identity = some t) :
    t.identity = identity := by
  simpa using List.find?_some h

/-- An application that is not there yet gets the next handle. -/
theorem handle?_push {identity : Text} {args : List Handle} {t : Template}
    (ht : s.template? identity = some t) (hnone : s.handle? identity args = none) :
    TypeStore.handle? { s with applications := s.applications.push { template := t, args := args } }
      identity args = some s.size := by
  unfold TypeStore.handle? at *
  rw [Array.findIdx?_push, Option.map_eq_none_iff.1 hnone]
  simp [template?_identity ht, size]

theorem ensures_specialize (identity : Text) (args : List Handle) :
    Ensures (specialize identity args) s fun h s' ↦
      s.Advances s' ∧ s'.handle? identity args = some h := by
  unfold specialize
  rw [Ensures, Stage.meets_bind, Stage.meets_get]
  cases ht : s.template? identity with
  | none => trivial
  | some t =>
    cases hh : s.handle? identity args with
    | some h =>
      cases harity : t.arity s.program with
      | none => simp [harity, hh, Advances.refl]
      | some arity => by_cases hlen : arity = args.length <;> simp [harity, hlen, hh, Advances.refl]
    | none =>
      have hpush := handle?_push ht hh
      have hadv : s.Advances
          { s with applications := s.applications.push { template := t, args := args } } :=
        advances_push (by rw [template?_identity ht]; exact ht) rfl
      cases harity : t.arity s.program with
      | none => simp [harity, hpush, hadv]
      | some arity =>
        by_cases hlen : arity = args.length <;> simp [harity, hlen, hpush, hadv]

theorem ensures_prim (p : Prim) :
    Ensures (prim p) s fun h s' ↦ s.Advances s' ∧
      (if p = .none then some Handle.void else s'.handle? (primIdentity p) []) = some h := by
  unfold prim
  split
  · exact ⟨.refl s, rfl⟩
  · exact ensures_specialize _ _

theorem ensures_instantiate (decl : DeclId) (args : List Handle) :
    Ensures (instantiate decl args) s fun h s' ↦
      s.Advances s' ∧ s'.handle? (declIdentity decl) args = some h := by
  unfold instantiate
  rw [Ensures, Stage.meets_bind, Stage.meets_get, Stage.meets_ite]
  exact ⟨fun _ ↦ ensures_specialize _ _, fun _ ↦ trivial⟩

/-- Making the handles of several things, where what is made of one stays true later. -/
theorem ensures_mapM {α β : Type} {f : α → M β} {l : List α} {R : TypeStore → α → β → Prop}
    (mono : ∀ s s' a b, s.Advances s' → R s a b → R s' a b)
    (step : ∀ a s, Ensures (f a) s fun b s' ↦ s.Advances s' ∧ R s' a b) :
    Ensures (l.mapM f) s fun bs s' ↦ s.Advances s' ∧ List.Forall₂ (R s') l bs :=
  Stage.ensures_mapM_of_mono (.refl s) (fun _ _ h h' ↦ h.trans h') mono
    fun a _ t _ ↦ step a t

theorem ensures_resolveWithin (depth : Nat) (id : TypeId) (scope : List Handle) :
    Ensures (resolveWithin depth id scope) s fun h s' ↦
      s.Advances s' ∧ s'.denoteWithin depth id scope = some h := by
  induction depth generalizing id s with
  | zero => trivial
  | succ depth ih =>
    have all (ids : List TypeId) (s : TypeStore) :
        Ensures (ids.mapM fun a ↦ resolveWithin depth a scope) s fun hs s' ↦
          s.Advances s' ∧ (ids.mapM fun a ↦ s'.denoteWithin depth a scope) = some hs :=
      (ensures_mapM (R := fun s a h ↦ s.denoteWithin depth a scope = some h)
        (fun _ _ _ _ hext ↦ hext.denoteWithin) (fun a s ↦ ih a)).imp
        fun _ _ h ↦ ⟨h.1, mapM_eq_some_iff.2 h.2⟩
    unfold resolveWithin
    by_cases hid : id = 0
    · simp [hid, denoteWithin, Advances.refl]
    simp only [hid, if_false, Ensures, Stage.meets_bind, Stage.meets_get]
    cases ht : s.program.typeExpr? id with
    | none => trivial
    | some t =>
      simp only
      cases hk : t.kind <;> simp only
      case void => exact ⟨.refl s, by simp only [denoteWithin, hid, if_false, ht, hk]⟩
      case prim =>
        refine (ensures_prim t.prim).imp ?_
        rintro h s' ⟨hext, hh⟩
        refine ⟨hext, ?_⟩
        simp only [denoteWithin, hid, if_false, hext.program, ht, hk]
        exact hh
      case named =>
        rw [Stage.meets_bind]
        refine (all t.args s).imp ?_
        rintro args s₁ ⟨hext₁, hargs⟩
        refine (ensures_instantiate t.decl args).imp ?_
        rintro h s₂ ⟨hext₂, hh⟩
        have hext := hext₁.trans hext₂
        refine ⟨hext, ?_⟩
        simp only [denoteWithin, hid, if_false, hext.program, ht, hk]
        exact Option.bind_eq_some_iff.2
          ⟨args, mapM_some_mono (fun _ _ ↦ hext₂.denoteWithin) hargs, hh⟩
      case param =>
        cases hi : scope[t.index.toNat]? with
        | none => trivial
        | some h => exact ⟨.refl s, by simpa only [denoteWithin, hid, if_false, ht, hk] using hi⟩
      case pointer =>
        rw [Stage.meets_bind]
        refine (ih t.elem).imp ?_
        rintro elem s₁ ⟨hext₁, helem⟩
        refine (ensures_specialize "ptr" [elem]).imp ?_
        rintro h s₂ ⟨hext₂, hh⟩
        have hext := hext₁.trans hext₂
        refine ⟨hext, ?_⟩
        simp only [denoteWithin, hid, if_false, hext.program, ht, hk]
        exact Option.bind_eq_some_iff.2 ⟨elem, hext₂.denoteWithin helem, hh⟩
      case function =>
        rw [Stage.meets_bind]
        refine (all t.args s).imp ?_
        rintro params s₁ ⟨hext₁, hparams⟩
        rw [Stage.meets_bind]
        refine (ih t.elem).imp ?_
        rintro result s₂ ⟨hext₂, hresult⟩
        refine (ensures_specialize "fn" (params ++ [result])).imp ?_
        rintro h s₃ ⟨hext₃, hh⟩
        have hext := (hext₁.trans hext₂).trans hext₃
        refine ⟨hext, ?_⟩
        simp only [denoteWithin, hid, if_false, hext.program, ht, hk]
        exact Option.bind_eq_some_iff.2
          ⟨params, mapM_some_mono (fun _ _ ↦ (hext₂.trans hext₃).denoteWithin) hparams,
            Option.bind_eq_some_iff.2 ⟨result, hext₃.denoteWithin hresult, hh⟩⟩
      case unknown => trivial

theorem ensures_resolve (id : TypeId) (scope : List Handle) :
    Ensures (resolve id scope) s fun h s' ↦ s.Advances s' ∧ s'.denote id scope = some h := by
  unfold resolve
  rw [Ensures, Stage.meets_bind, Stage.meets_get]
  refine (ensures_resolveWithin _ id scope).imp ?_
  rintro h s' ⟨hext, hd⟩
  exact ⟨hext, by rw [denote, hext.program]; exact hd⟩

theorem ensures_resolveAll (ids : List TypeId) (scope : List Handle) :
    Ensures (resolveAll ids scope) s fun hs s' ↦
      s.Advances s' ∧ s'.denoteAll ids scope = some hs := by
  refine (ensures_mapM (R := fun s a h ↦ s.denote a scope = some h)
    (fun _ _ _ _ hext ↦ hext.denote) (fun a s ↦ ensures_resolve a scope)).imp ?_
  rintro hs s' ⟨hext, hall⟩
  exact ⟨hext, mapM_eq_some_iff.2 hall⟩

/-! ## Building types -/

/-- The name of a handle's type, if the type is built. -/
def nameOf? (s : TypeStore) (h : Handle) : Option Text :=
  (s.type? h).map ConcreteType.name

/-- The symbol of a name applied to generic arguments whose types are built. -/
def mangled? (s : TypeStore) (name : Text) (args : List Handle) : Option Text :=
  if args.isEmpty then some name
  else (args.mapM s.nameOf?).map fun names ↦ name ++ "<" ++ Text.join "," names ++ ">"

theorem Extends.nameOf? (hext : s.Extends s') {n : Text} (hn : s.nameOf? h = some n) :
    s'.nameOf? h = some n := by
  obtain ⟨t, ht, rfl⟩ := Option.map_eq_some_iff.1 hn
  obtain ⟨t', ht', hcore, -⟩ := hext.type h t ht
  exact Option.map_eq_some_iff.2 ⟨t', ht', congrArg (fun c ↦ c.name) hcore⟩

theorem Extends.mangled? (hext : s.Extends s') {name n : Text} {args : List Handle}
    (hn : s.mangled? name args = some n) : s'.mangled? name args = some n := by
  unfold TypeStore.mangled? at *
  split
  · rwa [if_pos ‹_›] at hn
  · rw [if_neg ‹_›] at hn
    obtain ⟨names, hnames, rfl⟩ := Option.map_eq_some_iff.1 hn
    exact Option.map_eq_some_iff.2
      ⟨names, mapM_some_mono (fun _ _ ↦ hext.nameOf?) hnames, rfl⟩

/-- What building the type of a handle is to give. -/
def Builds (build : Handle → M ConcreteType) : Prop :=
  ∀ h s, Ensures (build h) s fun t s' ↦ s.Advances s' ∧ s'.type? h = some t

variable {build : Handle → M ConcreteType}

theorem ensures_shortName (hbuild : Builds build) :
    Ensures (shortName build h) s fun _ s' ↦ s.Advances s' := by
  unfold shortName
  by_cases hh : h = 0
  · simp [hh, Advances.refl]
  simp only [hh, if_false, Ensures, Stage.meets_bind, Stage.meets_get]
  cases s.application? h with
  | none => trivial
  | some a =>
    by_cases hb : a.building
    · simp [hb, Advances.refl]
    · simp only [hb, Bool.false_eq_true, if_false, Stage.meets_bind]
      exact (hbuild h s).imp fun _ _ h ↦ h.1

theorem ensures_mangleWith (hbuild : Builds build) (name : Text) (args : List Handle) :
    Ensures (mangleWith build name args) s fun n s' ↦
      s.Advances s' ∧ s'.mangled? name args = some n := by
  unfold mangleWith mangled?
  split
  · exact ⟨.refl s, rfl⟩
  rw [Ensures, Stage.meets_bind]
  refine (ensures_mapM (R := fun s a n ↦ s.nameOf? a = some n)
    (fun _ _ _ _ hext ↦ hext.nameOf?) fun a s ↦ ?_).imp ?_
  · rw [Ensures, Stage.meets_bind]
    refine (hbuild a s).imp ?_
    rintro t s' ⟨hadv, ht⟩
    exact ⟨hadv, Option.map_eq_some_iff.2 ⟨t, ht, rfl⟩⟩
  · rintro names s' ⟨hadv, hall⟩
    exact ⟨hadv, Option.map_eq_some_iff.2 ⟨names, mapM_eq_some_iff.2 hall, rfl⟩⟩

theorem ensures_membersOf (fields : List Field) (args : List Handle) :
    Ensures (membersOf fields args) s fun r s' ↦ s.Advances s' ∧
      List.Forall₂ (fun f m ↦ m.name = f.name ∧ s'.denote f.type args = some m.type) fields r.1 := by
  unfold membersOf
  rw [Ensures, Stage.meets_bind]
  refine (ensures_mapM
    (R := fun s f (r : Member × TypeKind) ↦ r.1.name = f.name ∧ s.denote f.type args = some r.1.type)
    (fun _ _ _ _ hext ↦ And.imp_right hext.denote) fun f s ↦ ?_).imp ?_
  · rw [Ensures, Stage.meets_bind]
    refine (ensures_resolve f.type args).imp ?_
    rintro h s' ⟨hadv, hd⟩
    cases hk : s'.kindOf h with
    | error e => simp [hk]
    | ok k => simp [hk, hadv, hd]
  · rintro pairs s' ⟨hadv, hall⟩
    exact ⟨hadv, List.forall₂_map_right_iff.2 hall⟩

/-- A type of a template that declares nothing. -/
theorem fits_of_undeclared {a : Application} {t : ConcreteType}
    (htemplate : ∀ id, a.template ≠ .aggregate id) (hargs : t.args = a.args)
    (hkind : t.kind = a.template.kind s.program) (helem : t.elem = a.elem)
    (hparams : t.params = a.params) (hresult : t.result = a.result)
    (hnone : t.members = [] ∧ t.methods = [] ∧ t.operators = [] ∧ t.init = 0) : t.Fits s a := by
  have haggregate : a.aggregate s.program = {} := by
    unfold Application.aggregate
    split
    · exact absurd ‹_› (htemplate _)
    · rfl
  obtain ⟨hmembers, hmethods, hoperators, hinit⟩ := hnone
  constructor
  · exact hargs
  · exact hkind
  · exact helem
  · exact hparams
  · exact hresult
  · rw [haggregate, hmembers]
    exact .nil
  · rw [haggregate, hmethods]
    rfl
  · rw [haggregate, hoperators]
    rfl
  · rw [haggregate, hinit]

/-- Building follows the template; what a type under construction owes to its application is known
before it is stored. -/
theorem ensures_materialize (hbuild : Builds build) {a marked : Application}
    (hmarked : s.application? h = some marked) (hsame : marked.template = a.template)
    (hsameArgs : marked.args = a.args) :
    Ensures (materialize build h a) s fun r s' ↦ s.Advances s' ∧
      ∀ t, r = some t → s'.Faithful → ConcreteType.Fits s' a { t with handle := h, args := a.args } := by
  unfold materialize
  rw [Ensures, Stage.meets_bind, Stage.meets_get]
  cases htemplate : a.template with
  | prim q =>
    refine ⟨.refl s, ?_⟩
    rintro t ⟨⟩ -
    apply fits_of_undeclared <;> simp [htemplate, Application.elem, Application.params,
      Application.result, Template.kind]
  | pointer =>
    cases hargs : a.args with
    | nil => trivial
    | cons elem rest =>
      simp only [List.head?_cons, Stage.some!, Stage.meets_bind, Stage.meets_pure]
      refine (ensures_shortName hbuild).imp ?_
      rintro name s' hadv
      refine ⟨hadv, ?_⟩
      rintro t ⟨⟩ -
      apply fits_of_undeclared <;> simp [htemplate, hargs, Application.elem, Application.params,
        Application.result, Template.kind]
  | function =>
    cases hlast : a.args.getLast? with
    | none => exact ⟨.refl s, fun _ h ↦ by cases h⟩
    | some result =>
      simp only [Stage.meets_bind]
      refine (ensures_mapM (R := fun _ _ _ ↦ True) (fun _ _ _ _ _ _ ↦ trivial)
        fun h s ↦ (ensures_shortName hbuild).imp fun _ _ hadv ↦ ⟨hadv, trivial⟩).imp ?_
      rintro names s₁ ⟨hadv₁, -⟩
      refine (ensures_shortName hbuild).imp ?_
      rintro resultName s₂ hadv₂
      refine ⟨hadv₁.trans hadv₂, ?_⟩
      rintro t ⟨⟩ -
      apply fits_of_undeclared <;> simp [htemplate, List.getLastD_eq_getLast?, hlast,
        Application.elem, Application.params, Application.result, Template.kind]
  | aggregate id =>
    cases hd : s.program.decl? id with
    | none => simp [hd, Stage.some!]
    | some d =>
      cases hagg : d.aggregate with
      | none => simp [hd, hagg, Stage.some!]
      | some agg =>
        have haggregate : a.aggregate s.program = agg := by
          simp [Application.aggregate, htemplate, hd, hagg]
        simp only [hd, hagg, Stage.some!, Stage.meets_bind, Stage.meets_pure]
        refine (ensures_mangleWith hbuild d.name a.args).imp ?_
        rintro name s₁ ⟨hadv₁, -⟩
        refine (ensures_membersOf agg.fields a.args).imp ?_
        rintro ⟨members, deps⟩ s₂ ⟨hadv₂, hmembers⟩
        have hadv := hadv₁.trans hadv₂
        cases hmethods : methodTable s.program agg.methods with
        | error e => simp
        | ok methods =>
          cases hoperators : operatorTable s.program agg.operators with
          | error e => simp
          | ok operators =>
            simp only [Stage.meets_ofExcept]
            refine ⟨hadv, ?_⟩
            rintro t ⟨⟩ -
            constructor
            all_goals simp only [htemplate, haggregate, Application.elem, Application.params,
              Application.result, hadv.program]
            · exact hmembers
            · exact hmethods
            · exact hoperators
  | custom identity arity kind recipe =>
    cases recipe with
    | plain =>
      refine ⟨.refl s, ?_⟩
      rintro t ⟨⟩ -
      apply fits_of_undeclared <;> simp [htemplate, Application.elem, Application.params,
        Application.result, Template.kind]
    | missing => exact ⟨.refl s, fun _ h ↦ by cases h⟩
    | circular =>
      simp only [Stage.meets_bind]
      refine (hbuild h s).imp ?_
      rintro t s' ⟨hadv, ht⟩
      refine ⟨hadv, ?_⟩
      rintro _ ⟨⟩ hs'
      obtain ⟨b, hb, htemplate', hargs'⟩ := hadv.application? hmarked
      have hfits := (hs'.fits hb ht).2.mono (Extends.refl s').toKeeps
        (htemplate'.trans hsame).symm (hargs'.trans hsameArgs).symm
      exact { hfits with args := rfl }
    | pointerNamed =>
      simp only [Stage.meets_bind]
      refine (ensures_specialize "ptr" [h]).imp ?_
      rintro pointer s₁ ⟨hadv₁, -⟩
      refine (hbuild pointer s₁).imp ?_
      rintro t s₂ ⟨hadv₂, -⟩
      refine ⟨hadv₁.trans hadv₂, ?_⟩
      rintro t ⟨⟩ -
      apply fits_of_undeclared <;> simp [htemplate, Application.elem, Application.params,
        Application.result, Template.kind]

theorem application?_update (f : Application → Application) (g : Handle) :
    (s.update h f).application? g =
      if g = h then (s.application? g).map f else s.application? g := by
  unfold update application?
  by_cases hh : h = 0
  · subst hh
    simp only [if_true]
    split <;> simp_all
  · by_cases hg : g = 0
    · simp [hg, Ne.symm hh]
    · simp only [hh, hg, if_false, Array.getElem?_modify]
      by_cases hgh : g = h
      · simp [hgh]
      · have hne : h - 1 ≠ g - 1 := fun he ↦
          hgh (Nat.sub_one_cancel (Nat.pos_of_ne_zero hg) (Nat.pos_of_ne_zero hh) he.symm)
        rw [if_neg hne, if_neg hgh]

/-- Marking an application, or storing its type, keeps what it applies to what. -/
theorem keeps_update {f : Application → Application}
    (hf : ∀ a, (f a).template = a.template ∧ (f a).args = a.args) : s.Keeps (s.update h f) where
  program := by unfold update; split <;> rfl
  templates := by unfold update; split <;> rfl
  application := by
    intro i a ha
    unfold update
    split
    · exact ⟨a, ha, rfl, rfl⟩
    · simp only [Array.getElem?_modify, ha]
      split
      · exact ⟨f a, rfl, hf a⟩
      · exact ⟨a, rfl, rfl, rfl⟩
  fresh := by
    intro i a ha hi
    have hsize : (s.update h f).applications.size = s.applications.size := by
      unfold update
      split <;> simp
    have hlt := (Array.getElem?_eq_some_iff.1 ha).1
    omega

theorem advances_update {f : Application → Application}
    (hf : ∀ a, (f a).template = a.template ∧ (f a).args = a.args ∧ (f a).type = a.type) :
    s.Advances (s.update h f) := by
  refine (keeps_update fun a ↦ ⟨(hf a).1, (hf a).2.1⟩).advances fun g t ↦ ?_
  unfold type?
  rw [application?_update]
  split
  · rfl
  · split
    · cases s.application? g <;> simp [(hf _).2.2]
    · rfl

theorem type?_setType {t : ConcreteType} {a : Application} (ha : s.application? t.handle = some a)
    (g : Handle) : (s.setType t).type? g = if g = t.handle then some t else s.type? g := by
  have ht := (application?_eq_some.1 ha).1
  unfold type? setType
  rw [application?_update]
  by_cases hgt : g = t.handle
  · simp [hgt, ht, ha]
  · simp [hgt]

/-- A type may be stored over one that differs from it in the layout alone and has none yet, if it
is what the application asks for. -/
theorem advances_setType {t : ConcreteType} {a : Application}
    (hold : ∀ u, s.type? t.handle = some u → t.core = u.core ∧ u.resolved = false)
    (hadv : s.Advances s') (ha : s'.application? t.handle = some a)
    (hfits : s.Faithful → t.Fits s' a) : s.Advances (s'.setType t) := by
  have hkeeps : s'.Keeps (s'.setType t) := keeps_update fun _ ↦ ⟨rfl, rfl⟩
  have htype := type?_setType ha
  refine ⟨⟨hadv.toKeeps.trans hkeeps, ?_⟩, ?_⟩
  · intro g u hu
    rw [htype]
    split
    · rename_i hgt
      obtain ⟨hcore, hres⟩ := hold u (hgt ▸ hu)
      exact ⟨t, rfl, hcore, fun h ↦ by simp [hres] at h⟩
    · exact hadv.type g u hu
  · intro hs g b u hb hu
    have hs' := hadv.faithful hs
    rw [← type?_eq hb, htype] at hu
    obtain ⟨hg, -⟩ := application?_eq_some.1 hb
    have hb' := hb
    unfold setType at hb'
    rw [application?_update] at hb'
    split at hu
    · rename_i hgt
      cases hu
      subst hgt
      simp only [if_true, ha, Option.map_some, Option.some.injEq] at hb'
      subst hb'
      exact ⟨rfl, (hfits hs).mono hkeeps rfl rfl⟩
    · rw [if_neg ‹_›] at hb'
      obtain ⟨hhandle, hfits⟩ := hs'.fits hb' hu
      exact ⟨hhandle, hfits.mono hkeeps rfl rfl⟩

theorem builds_getWithin (depth : Nat) : Builds (getWithin depth) := by
  induction depth with
  | zero => exact fun _ _ ↦ trivial
  | succ depth ih =>
    intro h s
    unfold getWithin
    by_cases hh : h = 0
    · simp [hh, Advances.refl, type?]
    simp only [hh, if_false, Ensures, Stage.meets_bind, Stage.meets_get]
    cases ha : s.application? h with
    | none => trivial
    | some a =>
      simp only
      cases ht : a.type with
      | some t => exact ⟨.refl s, (type?_eq ha).trans ht⟩
      | none =>
        simp only
        by_cases hb : a.building
        · simp [hb]
        let mark (building : Bool) (s : TypeStore) : TypeStore :=
          s.update h fun a ↦ { a with building := building }
        have hmark (building : Bool) (s : TypeStore) : s.Advances (mark building s) :=
          advances_update fun _ ↦ ⟨rfl, rfl, rfl⟩
        have hmarked : (mark true s).application? h = some { a with building := true } := by
          simp [mark, application?_update, ha]
        simp only [hb, Bool.false_eq_true, if_false, Stage.meets_bind, Stage.meets_modify]
        refine (ensures_materialize (a := a) ih hmarked rfl rfl).imp ?_
        rintro r s₁ ⟨hadv, hfits⟩
        cases r with
        | none => trivial
        | some t =>
          have hadv' := ((hmark true s).trans hadv).trans (hmark false s₁)
          obtain ⟨b, hb, htemplate, hargs⟩ := hadv'.application? ha
          have hfits' (hs : s.Faithful) :
              ConcreteType.Fits (mark false s₁) b { t with handle := h, args := a.args } :=
            (hfits t rfl (((hmark true s).trans hadv).faithful hs)).mono (hmark false s₁).toKeeps
              htemplate hargs
          refine ⟨advances_setType (fun u hu ↦ ?_) hadv' hb hfits', ?_⟩
          · rw [type?_eq ha, ht] at hu
            cases hu
          exact (type?_setType hb h).trans (if_pos rfl)

theorem builds_getType : Builds getType := by
  intro h s
  unfold getType
  rw [Ensures, Stage.meets_bind, Stage.meets_get]
  exact builds_getWithin _ h s

/-! ## Symbols -/

/-- The symbol of a plain function applied to arguments whose types are built. -/
def functionName? (s : TypeStore) (decl : DeclId) (args : List Handle) : Option Text := do
  let d ← s.program.decl? decl
  s.mangled? d.name args

/-- The symbol of a method, operator or constructor of a type that is built. -/
def memberName? (s : TypeStore) (owner : Handle) (decl : DeclId) : Option Text := do
  let d ← s.program.decl? decl
  let base := (← s.nameOf? owner) ++ "."
  let f ← d.function
  match f.kind with
  | .operator => some (base ++ "operator" ++ f.op.name)
  | .constructor => some (base ++ "init")
  | _ => some (base ++ d.name)

theorem Extends.functionName? (hext : s.Extends s') {decl : DeclId} {args : List Handle} {n : Text}
    (hn : s.functionName? decl args = some n) : s'.functionName? decl args = some n := by
  obtain ⟨d, hd, hn⟩ := Option.bind_eq_some_iff.1 hn
  exact Option.bind_eq_some_iff.2 ⟨d, by rw [hext.program]; exact hd, hext.mangled? hn⟩

theorem Extends.memberName? (hext : s.Extends s') {owner : Handle} {decl : DeclId} {n : Text}
    (hn : s.memberName? owner decl = some n) : s'.memberName? owner decl = some n := by
  obtain ⟨d, hd, hn⟩ := Option.bind_eq_some_iff.1 hn
  obtain ⟨base, hbase, hn⟩ := Option.bind_eq_some_iff.1 hn
  exact Option.bind_eq_some_iff.2 ⟨d, by rw [hext.program]; exact hd,
    Option.bind_eq_some_iff.2 ⟨base, hext.nameOf? hbase, hn⟩⟩

theorem ensures_nameOf (h : Handle) :
    Ensures (nameOf h) s fun n s' ↦ s.Advances s' ∧ s'.nameOf? h = some n := by
  unfold nameOf
  rw [Ensures, Stage.meets_bind]
  refine (builds_getType h s).imp ?_
  rintro t s' ⟨hadv, ht⟩
  exact ⟨hadv, Option.map_eq_some_iff.2 ⟨t, ht, rfl⟩⟩

theorem ensures_functionName (decl : DeclId) (args : List Handle) :
    Ensures (functionName decl args) s fun n s' ↦
      s.Advances s' ∧ s'.functionName? decl args = some n := by
  unfold functionName
  rw [Ensures, Stage.meets_bind, Stage.meets_get]
  cases hd : s.program.decl? decl with
  | none => trivial
  | some d =>
    refine (ensures_mangleWith builds_getType d.name args).imp ?_
    rintro n s' ⟨hadv, hn⟩
    exact ⟨hadv, Option.bind_eq_some_iff.2 ⟨d, by rw [hadv.program]; exact hd, hn⟩⟩

theorem ensures_memberName (owner : Handle) (decl : DeclId) :
    Ensures (memberName owner decl) s fun n s' ↦
      s.Advances s' ∧ s'.memberName? owner decl = some n := by
  unfold memberName
  rw [Ensures, Stage.meets_bind, Stage.meets_get]
  cases hd : s.program.decl? decl with
  | none => trivial
  | some d =>
    simp only [Stage.some!, Stage.meets_bind, Stage.meets_pure]
    refine (ensures_nameOf owner).imp ?_
    rintro base s' ⟨hadv, hbase⟩
    cases hf : d.function with
    | none => trivial
    | some f =>
      have hname {n : Text} (hn : (match f.kind with
          | .operator => some (base ++ "." ++ "operator" ++ f.op.name)
          | .constructor => some (base ++ "." ++ "init")
          | _ => some (base ++ "." ++ d.name)) = some n) :
          s.Advances s' ∧ s'.memberName? owner decl = some n := by
        refine ⟨hadv, Option.bind_eq_some_iff.2 ⟨d, by rw [hadv.program]; exact hd,
          Option.bind_eq_some_iff.2 ⟨base, hbase, ?_⟩⟩⟩
        rw [hf]
        exact hn
      simp only [Stage.meets_pure]
      split <;> refine hname ?_ <;> simp [*]

end WasmBackend.TypeStore
