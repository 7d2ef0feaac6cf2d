import WasmBackend.Proofs.Types.Handles

/-!
# Types that can be built

The type of a handle can be built when its template finds all it needs in the program and the types
of its arguments can be built.  Arguments have smaller handles, so building never comes back to a
type under construction, and it takes no more levels than there are handles.
-/

namespace WasmBackend

/-- A template finds what it needs to build a type from arguments. -/
def Template.Complete (p : Program) (args : List Handle) : Template → Prop
  | prim _ => True
  | pointer | function => args ≠ []
  | aggregate id => ∃ d agg, p.decl? id = some d ∧ d.aggregate = some agg ∧
      (∀ f ∈ agg.fields, p.Resolves args.length f.type) ∧
      (∃ methods, TypeStore.methodTable p agg.methods = .ok methods) ∧
      ∃ operators, TypeStore.operatorTable p agg.operators = .ok operators
  | custom .. => False

namespace TypeStore

open Stage (Leaves leaves_pure leaves_throw leaves_get_bind leaves_modify_bind
  leaves_ofExcept_bind leaves_mapM)

/-- The type of a handle is built or can be. -/
inductive Buildable (s : TypeStore) : Handle → Prop where
  | built {h : Handle} {t : ConcreteType} (ht : s.type? h = some t) : Buildable s h
  | apply {h : Handle} {a : Application} (ha : s.application? h = some a)
      (hbuilding : a.building = false) (hcomplete : a.template.Complete s.program a.args)
      (hargs : ∀ g ∈ a.args, Buildable s g) : Buildable s h

variable {s s' : TypeStore} {h : Handle}

theorem Enlarges.buildable (he : s.Enlarges s') (hb : s.Buildable h) : s'.Buildable h := by
  induction hb with
  | built ht => exact .built (he.type _ _ ht)
  | @apply h a ha hbuilding hcomplete _ ih =>
    obtain ⟨a', ha', htemplate, hargs⟩ := he.application? ha
    cases hmark : a'.building with
    | true =>
      obtain ⟨b, hb, hbuilding'⟩ := he.building h a' ha' hmark
      cases ha.symm.trans hb
      simp [hbuilding] at hbuilding'
    | false =>
      refine .apply ha' hmark ?_ (by rwa [hargs])
      rw [htemplate, hargs, he.program]
      exact hcomplete

theorem exists_kindOf (hlt : h < s.size) : ∃ k, s.kindOf h = .ok k := by
  obtain rfl | hh := eq_or_ne h 0
  · exact ⟨.void, rfl⟩
  · obtain ⟨a, ha⟩ := exists_application hh hlt
    exact ⟨_, kindOf_eq ha⟩

theorem Ordered.args_lt_size (hs : s.Ordered) {a : Application} (ha : s.application? h = some a) :
    ∀ g ∈ a.args, g < s.size :=
  fun g hg ↦ (hs.args_lt h a ha g hg).trans (lt_size ha)

/-! ## Names and members -/

/-- What building the type of a handle leaves behind. -/
abbrev BuildsAt (build : Handle → M ConcreteType) (s : TypeStore) (h : Handle) : Prop :=
  Leaves (build h) s s.Follows (fun _ ↦ ¬s.Buildable h) fun t s' ↦
    s.Enlarges s' ∧ s'.type? h = some t

variable {build : Handle → M ConcreteType}

theorem leaves_shortName (hbuild : BuildsAt build s h) :
    Leaves (shortName build h) s s.Follows (fun _ ↦ ¬s.Buildable h) fun _ s' ↦ s.Enlarges s' := by
  unfold shortName
  by_cases hh : h = 0
  · simpa only [hh, if_true] using leaves_pure (.refl s) (.refl s)
  simp only [hh, if_false]
  refine leaves_get_bind ?_
  cases ha : s.application? h with
  | none =>
    refine leaves_throw (.refl s) ?_
    rintro (ht | ha')
    · obtain ⟨a, ha', -⟩ := exists_of_type? ht hh
      simp [ha] at ha'
    · simp [ha] at ha'
  | some a =>
    simp only
    split
    · exact leaves_pure (.refl s) (.refl s)
    · refine (hbuild.mono (fun _ h ↦ h) (fun _ h ↦ h) ?_).bind
      rintro t s₁ ⟨h₁, -⟩
      exact leaves_pure h₁.toFollows h₁

/-- Something made of each of some handles whose types can be built. -/
theorem leaves_each {f : Handle → M Text} {hs : List Handle}
    (hf : ∀ g ∈ hs, ∀ t, s.Enlarges t →
      Leaves (f g) t t.Follows (fun _ ↦ ¬t.Buildable g) fun _ t' ↦ t.Enlarges t') :
    Leaves (hs.mapM f) s s.Follows (fun _ ↦ ¬∀ g ∈ hs, s.Buildable g) fun _ s' ↦ s.Enlarges s' := by
  refine (leaves_mapM Follows Enlarges (fun _ _ _ ↦ True)
    (fun t ↦ ⟨.refl t, .refl t⟩) (fun _ _ _ h ↦ h.toFollows.trans) (fun _ _ _ ↦ .trans)
    (fun _ _ _ _ _ ↦ id) fun g hg t ht ↦ ?_).mono (fun _ h ↦ h) (fun _ h ↦ h) fun _ _ h ↦ h.1
  exact (hf g hg t ht).mono (fun _ h ↦ h) (fun _ hfail hall ↦ hfail (ht.buildable (hall g hg)))
    fun _ _ h ↦ ⟨h, trivial⟩

theorem leaves_mangleWith (name : Text) {args : List Handle}
    (hbuild : ∀ g ∈ args, ∀ t, s.Enlarges t → BuildsAt build t g) :
    Leaves (mangleWith build name args) s s.Follows (fun _ ↦ ¬∀ g ∈ args, s.Buildable g)
      fun _ s' ↦ s.Enlarges s' := by
  unfold mangleWith
  split
  · exact leaves_pure (.refl s) (.refl s)
  have hname (g : Handle) (hg : g ∈ args) (t : TypeStore) (ht : s.Enlarges t) :
      Leaves (do return (← build g).name) t t.Follows (fun _ ↦ ¬t.Buildable g)
        fun (_ : Text) t' ↦ t.Enlarges t' := by
    refine ((hbuild g hg t ht).mono (fun _ h ↦ h) (fun _ h ↦ h) ?_).bind
    rintro u t₁ ⟨h₁, -⟩
    exact leaves_pure h₁.toFollows h₁
  refine ((leaves_each hname).mono (fun _ h ↦ h) (fun _ h ↦ h) ?_).bind
  intro names s₁ h₁
  exact leaves_pure h₁.toFollows h₁

theorem leaves_membersOf (hs : s.Standard) (fields : List Field) {args : List Handle}
    (hargs : ∀ g ∈ args, g < s.size) :
    Leaves (membersOf fields args) s s.Follows
      (fun _ ↦ ¬∀ f ∈ fields, s.program.Resolves args.length f.type)
      fun r s' ↦ s.Enlarges s' ∧ (∀ m ∈ r.1, ∃ k, s'.kindOf m.type = .ok k) ∧
        (∀ g, g ∈ r.2 ↔ ∃ m ∈ r.1, m.type = g ∧ s'.kindOf g = .ok .struct) ∧
          ∀ m ∈ r.1, m.offset = 0 := by
  unfold membersOf
  refine ((leaves_mapM Follows Enlarges
    (fun t _ (r : Member × TypeKind) ↦ t.kindOf r.1.type = .ok r.2 ∧ r.1.offset = 0)
    (fun t ↦ ⟨.refl t, .refl t⟩) (fun _ _ _ h ↦ h.toFollows.trans) (fun _ _ _ ↦ .trans)
    (fun _ _ _ _ h hr ↦ ⟨h.kindOf hr.1, hr.2⟩) fun f hf t ht ↦ ?_).mono (fun _ h ↦ h) (fun _ h ↦ h) ?_).bind
  · refine ((makes_resolve (ht.standard hs) f.type (ht.all_lt_size hargs)).mono (fun _ h ↦ h)
      (fun _ hfail hall ↦ hfail ?_) ?_).bind
    · rw [ht.program]
      exact hall f hf
    · rintro h t₁ ⟨h₁, hlt⟩
      refine leaves_get_bind (leaves_ofExcept_bind h₁.toFollows (fun e he ↦ ?_) fun k hk ↦
        leaves_pure h₁.toFollows ⟨h₁, hk, rfl⟩)
      obtain ⟨k, hk⟩ := exists_kindOf hlt
      simp [hk] at he
  · rintro pairs s₁ ⟨h₁, hpairs⟩
    have hkind (r : Member × TypeKind) (hr : r ∈ pairs) : s₁.kindOf r.1.type = .ok r.2 := by
      obtain ⟨_, -, hk, -⟩ := Stage.exists_of_mem_right hpairs hr
      exact hk
    refine leaves_pure h₁.toFollows ⟨h₁, ?_, fun g ↦ ?_, ?_⟩
    · intro m hm
      obtain ⟨r, hr, rfl⟩ := List.mem_map.1 hm
      exact ⟨r.2, hkind r hr⟩
    · simp only [List.mem_filterMap, List.mem_map]
      constructor
      · rintro ⟨⟨m, k⟩, hr, hm⟩
        obtain ⟨hk, hm⟩ : k = .struct ∧ m.type = g := by simpa using hm
        subst k g
        exact ⟨m, ⟨_, hr, rfl⟩, rfl, hkind _ hr⟩
      · rintro ⟨_, ⟨⟨m, k⟩, hr, rfl⟩, rfl, hstruct⟩
        obtain rfl : k = .struct := Except.ok.inj ((hkind _ hr).symm.trans hstruct)
        exact ⟨_, hr, by simp⟩
    · intro m hm
      obtain ⟨r, hr, rfl⟩ := List.mem_map.1 hm
      obtain ⟨_, -, -, hoffset⟩ := Stage.exists_of_mem_right hpairs hr
      exact hoffset

/-! ## Building -/

theorem raw_of_no_members {a : Application} {t : ConcreteType} (hmembers : t.members = [])
    (hdeps : t.deps = []) (hprim : ∀ q, a.template = .prim q → t.prim = q)
    (hkind : t.kind.isAggregate = false) : t.Raw s a where
  prim := hprim
  known := by simp [hmembers]
  mem_deps := by simp [hmembers, hdeps]
  unresolved := by simp [hkind]
  unplaced := by simp [hmembers]

/-- What a template leaves behind when it builds a type. -/
abbrev MaterializesAt (build : Handle → M ConcreteType) (s : TypeStore) (h : Handle)
    (a : Application) : Prop :=
  Leaves (materialize build h a) s s.Follows
    (fun _ ↦ ¬(a.template.Complete s.program a.args ∧ ∀ g ∈ a.args, s.Buildable g))
    fun r s' ↦ s.Enlarges s' ∧ (r = none → ¬a.template.Complete s.program a.args) ∧
      ∀ t, r = some t → t.Raw s' a

section Materialize

variable {a : Application} (hbuild : ∀ g ∈ a.args, ∀ t, s.Enlarges t → BuildsAt build t g)

include hbuild

theorem materializesAt_pointer (htemplate : a.template = .pointer) :
    MaterializesAt build s h a := by
  unfold MaterializesAt materialize
  refine leaves_get_bind ?_
  simp only [htemplate]
  cases hargs : a.args with
  | nil => exact leaves_throw (.refl s) fun h ↦ h.1 rfl
  | cons elem rest =>
    have hname := leaves_shortName (hbuild elem (by simp [hargs]) s (.refl s))
    refine (hname.mono (fun _ h ↦ h) (fun _ hfail h ↦ hfail (h.2 elem (by simp))) ?_).bind
    intro name s₁ h₁
    refine leaves_pure h₁.toFollows ⟨h₁, nofun, ?_⟩
    rintro t ⟨⟩
    exact raw_of_no_members rfl rfl (by simp [htemplate]) rfl

theorem materializesAt_function (htemplate : a.template = .function) :
    MaterializesAt build s h a := by
  unfold MaterializesAt materialize
  refine leaves_get_bind ?_
  simp only [htemplate]
  cases hlast : a.args.getLast? with
  | none =>
    exact leaves_pure (.refl s)
      ⟨.refl s, fun _ h ↦ h (List.getLast?_eq_none_iff.1 hlast), fun _ h ↦ nomatch h⟩
  | some result =>
    have hresult := List.mem_of_getLast? hlast
    have hnames := leaves_each fun g hg t ht ↦
      leaves_shortName (hbuild g (List.mem_of_mem_dropLast hg) t ht)
    refine (hnames.mono (fun _ h ↦ h)
      (fun _ hfail h ↦ hfail fun g hg ↦ h.2 g (List.mem_of_mem_dropLast hg)) ?_).bind
    intro names s₁ h₁
    refine ((leaves_shortName (hbuild result hresult s₁ h₁)).mono (fun _ ↦ h₁.toFollows.trans)
      (fun _ hfail h ↦ hfail (h₁.buildable (h.2 result hresult))) ?_).bind
    intro resultName s₂ h₂
    refine leaves_pure (h₁.trans h₂).toFollows ⟨h₁.trans h₂, nofun, ?_⟩
    rintro t ⟨⟩
    exact raw_of_no_members rfl rfl (by simp [htemplate]) rfl

theorem materializesAt_aggregate (hs : s.Standard) (hlt : ∀ g ∈ a.args, g < s.size) {id : DeclId}
    (htemplate : a.template = .aggregate id) : MaterializesAt build s h a := by
  unfold MaterializesAt materialize
  refine leaves_get_bind ?_
  simp only [htemplate]
  cases hd : s.program.decl? id with
  | none =>
    simp only [Stage.some!]
    refine ⟨Follows.refl s, ?_⟩
    rintro ⟨⟨d, agg, hd', -⟩, -⟩
    simp [hd] at hd'
  | some d =>
    simp only [Stage.some!, pure_bind]
    cases hagg : d.aggregate with
    | none =>
      refine ⟨Follows.refl s, ?_⟩
      rintro ⟨⟨d', agg, hd', hagg', -⟩, -⟩
      cases hd.symm.trans hd'
      simp [hagg] at hagg'
    | some agg =>
      have hcomplete : (Template.aggregate id).Complete s.program a.args →
          (∀ f ∈ agg.fields, s.program.Resolves a.args.length f.type) ∧
          (∃ methods, methodTable s.program agg.methods = .ok methods) ∧
          ∃ operators, operatorTable s.program agg.operators = .ok operators := by
        rintro ⟨d', agg', hd', hagg', h⟩
        cases hd.symm.trans hd'
        cases hagg.symm.trans hagg'
        exact h
      simp only [pure_bind]
      refine ((leaves_mangleWith d.name hbuild).mono (fun _ h ↦ h)
        (fun _ hfail (h : _ ∧ _) ↦ hfail h.2) ?_).bind
      intro name s₁ h₁
      refine ((leaves_membersOf (h₁.standard hs) agg.fields (h₁.all_lt_size hlt)).mono
        (fun _ ↦ h₁.toFollows.trans)
        (fun _ hfail h ↦ hfail (h₁.program ▸ (hcomplete h.1).1)) ?_).bind
      rintro ⟨members, deps⟩ s₂ ⟨h₂, hknown, hdeps, hunplaced⟩
      have h₁₂ := h₁.trans h₂
      refine leaves_ofExcept_bind h₁₂.toFollows (fun e he hall ↦ ?_) fun methods hmethods ↦
        leaves_ofExcept_bind h₁₂.toFollows (fun e he hall ↦ ?_) fun operators hoperators ↦ ?_
      · obtain ⟨methods, hmethods⟩ := (hcomplete hall.1).2.1
        simp [hmethods] at he
      · obtain ⟨operators, hoperators⟩ := (hcomplete hall.1).2.2
        simp [hoperators] at he
      · refine leaves_pure h₁₂.toFollows ⟨h₁₂, (fun h ↦ by cases h), ?_⟩
        rintro t ⟨⟩
        exact ⟨⟨by simp [htemplate], hknown, hdeps⟩, fun _ ↦ rfl, hunplaced⟩

theorem materializesAt (hs : s.Standard) {marked : Application}
    (hmarked : s.application? h = some marked) (hsame : marked.template = a.template)
    (hsameArgs : marked.args = a.args) : MaterializesAt build s h a := by
  cases htemplate : a.template with
  | prim q =>
    unfold MaterializesAt materialize
    refine leaves_get_bind ?_
    simp only [htemplate]
    refine leaves_pure (.refl s) ⟨.refl s, nofun, ?_⟩
    rintro t ⟨⟩
    exact raw_of_no_members rfl rfl (by simp [htemplate]) rfl
  | pointer => exact materializesAt_pointer hbuild htemplate
  | function => exact materializesAt_function hbuild htemplate
  | aggregate id =>
    exact materializesAt_aggregate hbuild hs (hsameArgs ▸ hs.ordered.args_lt_size hmarked) htemplate
  | custom =>
    have hnative : a.template.Native s.program := hsame ▸ hs.native hmarked
    simpa [htemplate] using hnative.cases

end Materialize

/-- Marking an application or storing its type keeps handles in order. -/
theorem follows_update {f : Application → Application}
    (hf : ∀ a, (f a).template = a.template ∧ (f a).args = a.args) : s.Follows (s.update h f) where
  toKeeps := keeps_update hf
  ordered := by
    intro hs
    have old {g : Handle} {b : Application} (hb : (s.update h f).application? g = some b) :
        ∃ a, s.application? g = some a ∧ b.template = a.template ∧ b.args = a.args := by
      rw [application?_update] at hb
      split at hb
      · obtain ⟨a, ha, rfl⟩ := Option.map_eq_some_iff.1 hb
        exact ⟨a, ha, hf a⟩
      · exact ⟨b, hb, rfl, rfl⟩
    constructor
    · intro g b hb
      obtain ⟨a, ha, -, hargs⟩ := old hb
      exact hargs ▸ hs.args_lt g a ha
    · intro g g' b b' hb hb' hidentity hsame
      obtain ⟨a, ha, htemplate, hargs⟩ := old hb
      obtain ⟨a', ha', htemplate', hargs'⟩ := old hb'
      exact hs.unique g g' a a' ha ha' (by rwa [← htemplate, ← htemplate'])
        (by rwa [← hargs, ← hargs'])

/-- Say whether the type of an application is being built. -/
def mark (h : Handle) (building : Bool) (s : TypeStore) : TypeStore :=
  s.update h fun a ↦ { a with building := building }

theorem follows_mark (building : Bool) : s.Follows (s.mark h building) :=
  follows_update fun _ ↦ ⟨rfl, rfl⟩

theorem type?_mark (building : Bool) (g : Handle) : (s.mark h building).type? g = s.type? g := by
  unfold type? mark
  rw [application?_update]
  split
  · rfl
  · split
    · cases s.application? g <;> rfl
    · rfl

/-- What comes before a type under construction can still be built. -/
theorem Ordered.buildable_mark (hs : s.Ordered) {g : Handle} (hb : s.Buildable g) (hlt : g < h) :
    (s.mark h true).Buildable g := by
  induction hb with
  | built ht => exact .built ((type?_mark true _).trans ht)
  | @apply g a ha hbuilding hcomplete _ ih =>
    have ha' : (s.mark h true).application? g = some a := by
      rw [mark, application?_update, if_neg hlt.ne, ha]
    refine .apply ha' hbuilding (by rwa [(follows_mark true).program]) fun g' hg' ↦ ?_
    exact ih g' hg' ((hs.args_lt g a ha g' hg').trans hlt)

/-- A type built while its application was marked may be stored. -/
theorem Enlarges.store {a : Application} (ha : s.application? h = some a) (hnew : a.type = none)
    (he : (s.mark h true).Enlarges s') {t : ConcreteType} (hhandle : t.handle = h)
    (hraw : t.Raw s' a) : s.Enlarges ((s'.mark h false).setType t) := by
  have happlication (g : Handle) : ((s'.mark h false).setType t).application? g =
      if g = h then (s'.application? g).map fun b ↦ { b with building := false, type := some t }
      else s'.application? g := by
    unfold setType mark
    rw [application?_update, application?_update, hhandle]
    split <;> simp [Function.comp_def]
  have hlast : s'.Follows ((s'.mark h false).setType t) :=
    (follows_mark false).trans (follows_update fun _ ↦ ⟨rfl, rfl⟩)
  have hfollows := (follows_mark true).trans he.toFollows
  obtain ⟨a', ha', htemplate, -⟩ := hfollows.application? ha
  have htype (g : Handle) : ((s'.mark h false).setType t).type? g =
      if g = h then some t else s'.type? g := by
    obtain rfl | hg := eq_or_ne g 0
    · exact (if_neg (application?_eq_some.1 ha).1.symm).symm
    · simp only [type?, hg, if_false, happlication]
      split
      · subst g
        simp [ha']
      · rfl
  constructor
  case toFollows => exact hfollows.trans hlast
  case type =>
    intro g u hu
    have hne : g ≠ h := by
      rintro rfl
      simp [type?_eq ha, hnew] at hu
    rw [htype, if_neg hne]
    exact he.type g u ((type?_mark true g).trans hu)
  case building =>
    intro g b hb hbuilding
    rw [happlication] at hb
    split at hb
    · obtain ⟨c, -, rfl⟩ := Option.map_eq_some_iff.1 hb
      cases hbuilding
    · obtain ⟨c, hc, hbuilding'⟩ := he.building g b hb hbuilding
      rw [mark, application?_update, if_neg ‹_›] at hc
      exact ⟨c, hc, hbuilding'⟩
  case built =>
    intro g b u hb hu
    obtain ⟨c, hc, htemplate', hnew'⟩ : ∃ c, s'.application? g = some c ∧
        b.template = c.template ∧ (u = t ∧ g = h ∨ c.type = some u) := by
      rw [happlication] at hb
      split at hb
      · obtain ⟨c, hc, rfl⟩ := Option.map_eq_some_iff.1 hb
        exact ⟨c, hc, rfl, .inl ⟨(Option.some.inj hu).symm, ‹_›⟩⟩
      · exact ⟨b, hb, rfl, .inr hu⟩
    obtain ⟨rfl, rfl⟩ | hold := hnew'
    · cases hc.symm.trans ha'
      exact .inr (hraw.mono hlast.toKeeps (htemplate'.trans htemplate))
    · rw [← type?_mark true]
      exact (he.built g c u hc hold).imp_right fun h ↦ h.mono hlast.toKeeps htemplate'

/-- Building a type fails only if it cannot be built. -/
theorem leaves_getWithin (hs : s.Standard) (depth : Nat) (hdepth : h < depth) :
    BuildsAt (getWithin depth) s h := by
  induction depth generalizing h s with
  | zero => exact absurd hdepth (Nat.not_lt_zero h)
  | succ depth ih =>
    unfold BuildsAt getWithin
    by_cases hh : h = 0
    · subst hh
      exact leaves_pure (.refl s) ⟨.refl s, rfl⟩
    simp only [hh, if_false]
    refine leaves_get_bind ?_
    cases ha : s.application? h with
    | none =>
      refine leaves_throw (.refl s) ?_
      rintro (ht | ha')
      · obtain ⟨a, ha', -⟩ := exists_of_type? ht hh
        simp [ha] at ha'
      · simp [ha] at ha'
    | some a =>
      simp only
      cases ht : a.type with
      | some t => exact leaves_pure (.refl s) ⟨.refl s, (type?_eq ha).trans ht⟩
      | none =>
        have hparts (hb : s.Buildable h) :
            a.building = false ∧ a.template.Complete s.program a.args ∧
              ∀ g ∈ a.args, s.Buildable g := by
          cases hb with
          | built ht' => simp [type?_eq ha, ht] at ht'
          | apply ha' hbuilding hcomplete hargs =>
            cases ha.symm.trans ha'
            exact ⟨hbuilding, hcomplete, hargs⟩
        simp only
        by_cases hbuilding : a.building
        · rw [if_pos hbuilding]
          exact ⟨Follows.refl s, fun hb ↦ by simp [(hparts hb).1] at hbuilding⟩
        rw [if_neg hbuilding]
        refine leaves_modify_bind ?_
        have hmark := follows_mark (s := s) (h := h) true
        have hmarked : (s.mark h true).application? h = some { a with building := true } := by
          simp [mark, application?_update, ha]
        have hargs (g : Handle) (hg : g ∈ a.args) (t : TypeStore)
            (ht : (s.mark h true).Enlarges t) :
            BuildsAt (getWithin depth) t g :=
          ih (ht.standard (hmark.standard hs))
            (Nat.lt_of_lt_of_le (hs.ordered.args_lt h a ha g hg) (Nat.le_of_lt_succ hdepth))
        refine ((materializesAt hargs (hmark.standard hs) hmarked rfl rfl).mono
          (fun _ ↦ hmark.trans) (fun _ hfail hb ↦ hfail ?_) ?_).bind
        · obtain ⟨-, hcomplete, hall⟩ := hparts hb
          refine ⟨by rwa [hmark.program], fun g hg ↦ ?_⟩
          exact hs.ordered.buildable_mark (hall g hg) (hs.ordered.args_lt h a ha g hg)
        · rintro r s₁ ⟨h₁, hnone, hraw⟩
          refine leaves_modify_bind ?_
          cases r with
          | none =>
            refine leaves_throw ((hmark.trans h₁.toFollows).trans (follows_mark false)) fun hb ↦ ?_
            exact hnone rfl (by rw [hmark.program]; exact (hparts hb).2.1)
          | some t =>
            refine leaves_modify_bind ?_
            obtain ⟨⟨hprim, hknown, hdeps⟩, hunresolved, hunplaced⟩ := hraw t rfl
            have hstore := Enlarges.store ha ht h₁ (t := { t with handle := h, args := a.args }) rfl
              ⟨⟨hprim, hknown, hdeps⟩, hunresolved, hunplaced⟩
            obtain ⟨b, hb, -⟩ :=
              ((hmark.trans h₁.toFollows).trans (follows_mark (h := h) false)).application? ha
            exact leaves_pure hstore.toFollows ⟨hstore, (type?_setType hb h).trans (if_pos rfl)⟩

theorem leaves_getType (hs : s.Standard) (hlt : h < s.size) : BuildsAt getType s h :=
  leaves_get_bind (leaves_getWithin hs _ (Nat.lt_of_lt_of_le hlt (by omega)))

end TypeStore

end WasmBackend
