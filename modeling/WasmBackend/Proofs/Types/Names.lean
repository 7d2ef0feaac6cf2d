import WasmBackend.Proofs.Types.Ground

/-!
# Names of types

What a type is called follows from its ground type alone: the template of a ground type makes the
name from the names of the arguments.  So a name does not depend on which types were built before,
as long as every type in the store has the name of its ground type.
-/

namespace WasmBackend

/-- The name of the type that a template builds, from the names of its arguments. -/
def Template.nameFrom (p : Program) (names : List Text) : Template → Text
  | prim q => q.name
  | pointer => "*" ++ names.headD {}
  | function => "fn(" ++ Text.join "," names.dropLast ++ ")" ++ names.getLastD {}
  | aggregate id =>
    let name := ((p.decl? id).map Decl.name).getD {}
    if names.isEmpty then name else name ++ "<" ++ Text.join "," names ++ ">"
  | custom identity .. => identity

/-- The name of a ground type. -/
def Program.typeName (p : Program) : GroundType → Text
  | .void => "void"
  | .apply identity args =>
    (((TypeStore.ofProgram p).template? identity).map
      (Template.nameFrom p (args.map p.typeName))).getD {}

namespace TypeStore

variable {s s' s'' : TypeStore} {h : Handle} {a : Application}

/-! ## Types that can be built from nothing -/

/-- The templates behind a handle find all they need. -/
inductive Whole (s : TypeStore) : Handle → Prop where
  | void : Whole s 0
  | apply {h : Handle} {a : Application} (ha : s.application? h = some a)
      (hcomplete : a.template.Complete s.program a.args) (hargs : ∀ g ∈ a.args, Whole s g) :
      Whole s h

theorem Whole.of_application (hw : s.Whole h) (ha : s.application? h = some a) :
    a.template.Complete s.program a.args ∧ ∀ g ∈ a.args, s.Whole g := by
  cases hw with
  | void => exact absurd rfl (application?_eq_some.1 ha).1
  | apply ha' hcomplete hargs =>
    cases ha.symm.trans ha'
    exact ⟨hcomplete, hargs⟩

theorem Whole.lt_size (hw : s.Whole h) : h < s.size := by
  cases hw with
  | void => exact s.zero_lt_size
  | apply ha => exact TypeStore.lt_size ha

theorem Keeps.whole (hk : s.Keeps s') (hw : s.Whole h) : s'.Whole h := by
  induction hw with
  | void => exact .void
  | apply ha hcomplete _ ih =>
    obtain ⟨a', ha', htemplate, hargs⟩ := hk.application? ha
    refine .apply ha' ?_ (by rwa [hargs])
    rwa [htemplate, hargs, hk.program]

/-- Whether the type of a handle can be built is settled when the handle is made. -/
theorem Follows.whole_iff (hf : s.Follows s') (hs : s.Ordered) (hlt : h < s.size) :
    s'.Whole h ↔ s.Whole h := by
  refine ⟨fun hw ↦ ?_, hf.whole⟩
  induction h using Nat.strong_induction_on with
  | _ h ih =>
    obtain rfl | hh := eq_or_ne h 0
    · exact .void
    obtain ⟨a, ha⟩ := exists_application hh hlt
    obtain ⟨a', ha', htemplate, hargs⟩ := hf.application? ha
    obtain ⟨hcomplete, hall⟩ := hw.of_application ha'
    rw [htemplate, hargs, hf.program] at hcomplete
    rw [hargs] at hall
    refine .apply ha hcomplete fun g hg ↦ ?_
    exact ih g (hs.args_lt h a ha g hg) (hs.args_lt_size ha g hg) (hall g hg)

/-- No type up to `h` is under construction. -/
def Idle (s : TypeStore) (h : Handle) : Prop :=
  ∀ g ≤ h, ∀ a, s.application? g = some a → a.building = false

theorem Idle.mono {g : Handle} (hi : s.Idle h) (hle : g ≤ h) : s.Idle g :=
  fun g' hg' ↦ hi g' (hg'.trans hle)

theorem Enlarges.idle (he : s.Enlarges s') (hi : s.Idle h) : s'.Idle h := by
  intro g hg a' ha'
  by_contra hbuilding
  obtain ⟨a, ha, hbuilding'⟩ := he.building g a' ha' (by simpa using hbuilding)
  simp [hi g hg a ha] at hbuilding'

theorem Whole.buildable (hs : s.Ordered) (hi : s.Idle h) (hw : s.Whole h) : s.Buildable h := by
  induction hw with
  | void => exact .built rfl
  | @apply h a ha hcomplete _ ih =>
    refine .apply ha (hi h le_rfl a ha) hcomplete fun g hg ↦ ?_
    exact ih g hg (hi.mono (hs.args_lt h a ha g hg).le)

/-! ## Names that follow from ground types -/

/-- The type of a handle can be built, and this is its name. -/
structure Named (s : TypeStore) (h : Handle) (name : Text) : Prop where
  whole : s.Whole h
  name_eq : name = s.program.typeName (s.ground h)

theorem named_void (s : TypeStore) : s.Named 0 "void" where
  whole := .void
  name_eq := by rw [ground_zero, Program.typeName]

theorem Follows.named {name : Text} (hf : s.Follows s') (hs : s.Ordered) (hn : s.Named h name) :
    s'.Named h name where
  whole := hf.whole hn.whole
  name_eq := by rw [hf.program, hf.ground_eq hs hn.whole.lt_size, hn.name_eq]

theorem map_typeName_eq {hs : List Handle} {names : List Text}
    (hn : List.Forall₂ s.Named hs names) :
    hs.map (fun g ↦ s.program.typeName (s.ground g)) = names := by
  induction hn with
  | nil => rfl
  | cons hn _ ih => rw [List.map_cons, ih, ← hn.name_eq]

/-- The template of an application makes the name. -/
theorem Standard.typeName_ground (hs : s.Standard) (ha : s.application? h = some a) :
    s.program.typeName (s.ground h) = a.template.nameFrom s.program
      (a.args.map fun g ↦ s.program.typeName (s.ground g)) := by
  have htemplate : (ofProgram s.program).template? a.template.identity = some a.template :=
    (standard_ofProgram s.program).template?_eq (hs.native ha)
  rw [hs.ordered.ground_eq ha, Program.typeName, htemplate, List.map_map, Option.map_some,
    Option.getD_some]
  rfl

theorem Standard.named_apply {names : List Text} (hs : s.Standard)
    (ha : s.application? h = some a) (hcomplete : a.template.Complete s.program a.args)
    (hn : List.Forall₂ s.Named a.args names) :
    s.Named h (a.template.nameFrom s.program names) where
  whole := .apply ha hcomplete fun g hg ↦ by
    obtain ⟨name, -, hname⟩ := Stage.exists_of_mem_right hn.flip hg
    exact hname.whole
  name_eq := by rw [hs.typeName_ground ha, map_typeName_eq hn]

/-- Applications have as many arguments as their templates take. -/
def Counted (s : TypeStore) : Prop :=
  ∀ h a, s.application? h = some a → ∀ n, a.template.arity s.program = some n → n = a.args.length

theorem Counted.update (hs : s.Counted) {f : Application → Application}
    (hf : ∀ a, (f a).template = a.template ∧ (f a).args = a.args) : (s.update h f).Counted := by
  have hprogram : (s.update h f).program = s.program := (keeps_update hf).program
  intro g b hb n hn
  rw [application?_update] at hb
  rw [hprogram] at hn
  split at hb
  · obtain ⟨a, ha, rfl⟩ := Option.map_eq_some_iff.1 hb
    rw [(hf a).1] at hn
    rw [(hf a).2]
    exact hs g a ha n hn
  · exact hs g b hb n hn

/-- A standard store in which every type that is built has the name of its ground type. -/
structure WellNamed (s : TypeStore) : Prop extends s.Standard where
  counted : s.Counted
  named : ∀ h t, s.type? h = some t → s.Named h t.name

theorem wellNamed_ofProgram (p : Program) : (ofProgram p).WellNamed where
  toStandard := standard_ofProgram p
  counted := by
    intro h a ha
    simp [application?, ofProgram] at ha
  named := by
    intro h t ht
    obtain rfl | hh := eq_or_ne h 0
    · cases ht
      exact named_void _
    · obtain ⟨a, ha, -⟩ := exists_of_type? ht hh
      simp [application?, ofProgram] at ha

/-- Handles are made on the way, with as many arguments as their templates take, and no type is
built. -/
structure MakesOnly (s s' : TypeStore) : Prop where
  type : ∀ h t, s'.type? h = some t → s.type? h = some t
  counted : s.Counted → s'.Counted

theorem MakesOnly.refl (s : TypeStore) : s.MakesOnly s :=
  ⟨fun _ _ ht ↦ ht, id⟩

theorem MakesOnly.trans (h₁ : s.MakesOnly s') (h₂ : s'.MakesOnly s'') : s.MakesOnly s'' :=
  ⟨fun h t ht ↦ h₁.type h t (h₂.type h t ht), h₂.counted ∘ h₁.counted⟩

theorem WellNamed.of_makesOnly (hs : s.WellNamed) (hf : s.Follows s') (hm : s.MakesOnly s') :
    s'.WellNamed where
  toStandard := hf.standard hs.toStandard
  counted := hm.counted hs.counted
  named := fun h t ht ↦ hf.named hs.ordered (hs.named h t (hm.type h t ht))

/-- The store grows into one in which types have the names of their ground types. -/
structure Grows (s s' : TypeStore) : Prop extends s.Enlarges s' where
  wellNamed : s'.WellNamed

theorem WellNamed.grows_refl (hs : s.WellNamed) : s.Grows s where
  toEnlarges := .refl s
  wellNamed := hs

theorem Grows.trans (h₁ : s.Grows s') (h₂ : s'.Grows s'') : s.Grows s'' where
  toEnlarges := h₁.toEnlarges.trans h₂.toEnlarges
  wellNamed := h₂.wellNamed

theorem Enlarges.grows (he : s.Enlarges s') (hs : s.WellNamed) (hm : s.MakesOnly s') :
    s.Grows s' where
  toEnlarges := he
  wellNamed := hs.of_makesOnly he.toFollows hm

end TypeStore

end WasmBackend
