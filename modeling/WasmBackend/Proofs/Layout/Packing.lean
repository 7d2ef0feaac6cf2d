import WasmBackend.Proofs.Layout.Resolving
import WasmBackend.Proofs.Types.Buildable

/-!
# Packed layouts

Laying out an aggregate whose struct members are laid out puts each member where the one before
ends: offsets are the sums of the sizes before.  It fails only if the type of a member cannot be
built or the sum of all sizes is out of range.
-/

namespace WasmBackend

open Stage (Ensures Meets)

namespace ConcreteType

theorem map_type_of_core {t t' : ConcreteType} (hcore : t'.core = t.core) :
    t'.members.map Member.type = t.members.map Member.type := by
  have := congrArg (fun c ↦ c.members.map Member.type) hcore
  simpa only [core, List.map_map, Function.comp_def] using this

/-- A layout changes nothing of what a type has besides. -/
theorem Shaped.congr_core {s : TypeStore} {a : Application} {t t' : ConcreteType}
    (ht : t.Shaped s a) (hcore : t'.core = t.core) : t'.Shaped s a := by
  have htypes := map_type_of_core hcore
  have hdeps : t'.deps = t.deps := congrArg (fun c ↦ c.deps) hcore
  constructor
  · exact fun q hq ↦ (congrArg (fun c ↦ c.prim) hcore).trans (ht.prim q hq)
  · intro m hm
    obtain ⟨m', hm', hsame⟩ := List.mem_map.1 (htypes ▸ List.mem_map_of_mem hm)
    exact hsame ▸ ht.known m' hm'
  · intro g
    have hmember : (∃ m ∈ t'.members, m.type = g) ↔ ∃ m ∈ t.members, m.type = g := by
      simpa using congrArg (g ∈ ·) htypes
    rw [hdeps, ht.mem_deps]
    simp only [← and_assoc, exists_and_right]
    rw [hmember]

end ConcreteType

namespace TypeStore

variable {s s' s'' : TypeStore} {h : Handle}

/-- A store of a program in which every built type is what its application asks for. -/
structure Proper (s : TypeStore) : Prop extends s.Standard where
  faithful : s.Faithful
  shaped : ∀ g a t, s.application? g = some a → a.type = some t → t.Shaped s a

/-- The same store with more handles and more types built. -/
structure Gains (s s' : TypeStore) : Prop extends s.Enlarges s' where
  faithful : s.Faithful → s'.Faithful

theorem Gains.refl (s : TypeStore) : s.Gains s :=
  ⟨.refl s, id⟩

theorem Gains.trans (h₁ : s.Gains s') (h₂ : s'.Gains s'') : s.Gains s'' :=
  ⟨h₁.toEnlarges.trans h₂.toEnlarges, h₂.faithful ∘ h₁.faithful⟩

/-- The same store later on, with layouts as well. -/
structure Lays (s s' : TypeStore) : Prop extends s.Advances s', s.Follows s' where
  shaped : (∀ g a t, s.application? g = some a → a.type = some t → t.Shaped s a) →
    ∀ g a t, s'.application? g = some a → a.type = some t → t.Shaped s' a
  buildable : ∀ g, s.Buildable g → s'.Buildable g

theorem Lays.refl (s : TypeStore) : s.Lays s where
  toAdvances := .refl s
  ordered := id
  shaped := id
  buildable := fun _ ↦ id

theorem Lays.trans (h₁ : s.Lays s') (h₂ : s'.Lays s'') : s.Lays s'' where
  toAdvances := h₁.toAdvances.trans h₂.toAdvances
  ordered := h₂.ordered ∘ h₁.ordered
  shaped := h₂.shaped ∘ h₁.shaped
  buildable := fun g ↦ h₂.buildable g ∘ h₁.buildable g

theorem Lays.proper (hl : s.Lays s') (hs : s.Proper) : s'.Proper where
  toStandard := hl.toFollows.standard hs.toStandard
  faithful := hl.faithful hs.faithful
  shaped := hl.shaped hs.shaped

theorem Gains.lays (hg : s.Gains s') : s.Lays s' where
  toKeeps := hg.toKeeps
  type := fun h t ht ↦ ⟨t, hg.type h t ht, rfl, fun _ ↦ rfl⟩
  faithful := hg.faithful
  ordered := hg.ordered
  shaped := by
    intro hs g a' t ha' ht
    obtain hold | hraw := hg.built g a' t ha' ht
    · obtain ⟨a, ha, hat⟩ := exists_of_type? hold (application?_eq_some.1 ha').1
      obtain ⟨b, hb, htemplate, -⟩ := hg.application? ha
      cases ha'.symm.trans hb
      exact (hs g a t ha hat).mono hg.toKeeps htemplate
    · exact hraw.toShaped
  buildable := fun _ ↦ hg.buildable

/-- A layout may be stored for a type that has none. -/
theorem lays_setType {t u : ConcreteType} (hold : s.type? t.handle = some u)
    (hcore : t.core = u.core) (hres : u.resolved = false) : s.Lays (s.setType t) := by
  have hne : t.handle ≠ 0 := ne_zero_of_type? hold (by rintro rfl; cases hres)
  obtain ⟨a, ha, hau⟩ := exists_of_type? hold hne
  have hadv : s.Advances (s.setType t) := by
    refine advances_setType (fun v hv ↦ ?_) (.refl s) ha fun hs ↦ ?_
    · obtain rfl : u = v := Option.some.inj (hold.symm.trans hv)
      exact ⟨hcore, hres⟩
    · exact (hs.fits ha hold).2.congr_core hcore
  have happlication (g : Handle) : (s.setType t).application? g =
      if g = t.handle then (s.application? g).map fun b ↦ { b with type := some t }
      else s.application? g := application?_update _ g
  have hordered : s.Ordered → (s.setType t).Ordered :=
    (follows_update (f := fun b ↦ { b with type := some t }) fun _ ↦ ⟨rfl, rfl⟩).ordered
  refine ⟨hadv, hordered, fun hs g b v hb hv ↦ ?_, fun g hg ↦ ?_⟩
  · rw [happlication] at hb
    split at hb
    · subst g
      rw [ha] at hb
      cases hb
      cases hv
      exact ((hs _ a u ha hau).congr_core hcore).mono hadv.toKeeps rfl
    · exact (hs g b v hb hv).mono hadv.toKeeps rfl
  · induction hg with
    | built ht =>
      obtain ⟨v, hv, -⟩ := hadv.type _ _ ht
      exact .built hv
    | @apply g b hb hbuilding hcomplete _ ih =>
      by_cases hgt : g = t.handle
      · exact .built ((type?_setType ha g).trans (if_pos hgt))
      · exact .apply ((happlication g).trans ((if_neg hgt).trans hb)) hbuilding
          (by rwa [hadv.program]) ih

theorem meets_getType (hs : s.Standard) (hlt : h < s.size) :
    Meets (getType h) s (fun _ ↦ ¬s.Buildable h) fun t s' ↦ s.Gains s' ∧ s'.type? h = some t := by
  refine ((leaves_getType hs hlt).2.and (builds_getType h s)).imp ?_
  rintro t s' ⟨⟨henlarges, ht⟩, hadv, -⟩
  exact ⟨⟨henlarges, hadv.faithful⟩, ht⟩

/-! ## Sizes of values -/

/-- The bytes a value of the type of a handle takes, if that is known. -/
def valueSize? (s : TypeStore) (h : Handle) : Option Nat :=
  (s.type? h).bind fun t ↦ t.valueSize.toOption

theorem Extends.valueSize? (hext : s.Extends s') {n : Nat} (hn : s.valueSize? h = some n) :
    s'.valueSize? h = some n := by
  obtain ⟨t, ht, hsize⟩ := Option.bind_eq_some_iff.1 hn
  obtain ⟨t', ht', hcore, hsame⟩ := hext.type h t ht
  refine Option.bind_eq_some_iff.2 ⟨t', ht', ?_⟩
  cases hres : t.resolved with
  | true => rw [hsame hres, hsize]
  | false =>
    have hkind : t'.kind = t.kind := congrArg (fun c ↦ c.kind) hcore
    have hprim : t'.prim = t.prim := congrArg (fun c ↦ c.prim) hcore
    unfold ConcreteType.valueSize at hsize ⊢
    rw [hkind, hprim]
    cases hk : t.kind with
    | struct =>
      simp only [hk, ConcreteType.laidOut, hres] at hsize
      cases hsize
    | _ => simpa only [hk] using hsize

/-- Members one after the other, of these sizes. -/
structure Packs (s : TypeStore) (members : List Member) (sizes : List Nat) : Prop where
  each : List.Forall₂ (fun m n ↦ s.valueSize? m.type = some n) members sizes
  offset : ∀ (i : Nat) (m : Member), members[i]? = some m → m.offset = (sizes.take i).sum

theorem Packs.mono {members : List Member} {sizes : List Nat} (hp : s.Packs members sizes)
    (hext : s.Extends s') : s'.Packs members sizes :=
  ⟨hp.each.imp fun _ _ ↦ hext.valueSize?, hp.offset⟩

theorem Packs.each_of_types {members members' : List Member} {sizes : List Nat}
    (hp : s.Packs members sizes) (htypes : members.map Member.type = members'.map Member.type) :
    List.Forall₂ (fun m n ↦ s.valueSize? m.type = some n) members' sizes := by
  have heach : List.Forall₂ (fun g n ↦ s.valueSize? g = some n) (members.map Member.type) sizes :=
    List.forall₂_map_left_iff.2 hp.each
  rw [htypes] at heach
  exact List.forall₂_map_left_iff.1 heach

theorem Packs.concat {members : List Member} {sizes : List Nat} (hp : s.Packs members sizes)
    {m : Member} {n : Nat} (hn : s.valueSize? m.type = some n) (hoffset : m.offset = sizes.sum) :
    s.Packs (members ++ [m]) (sizes ++ [n]) where
  each := List.rel_append hp.each (.cons hn .nil)
  offset := by
    intro i m' hm'
    have hlength := hp.each.length_eq
    obtain hi | hi := Nat.lt_or_ge i members.length
    · rw [List.getElem?_append_left hi] at hm'
      rw [List.take_append_of_le_length (hlength ▸ hi.le)]
      exact hp.offset i m' hm'
    · rw [List.getElem?_append_right hi] at hm'
      obtain ⟨hlast, rfl⟩ : i - members.length = 0 ∧ m = m' := by
        cases hk : i - members.length <;> simp_all
      obtain rfl : i = sizes.length := by omega
      rw [hoffset, List.take_append_of_le_length le_rfl, List.take_length]

end TypeStore

namespace ConcreteType

/-- A value has slots and a size, unless its layout is missing. -/
theorem exists_entries {t : ConcreteType} (ht : t.kind = .struct → t.resolved) :
    ∃ entries size, t.entries = .ok entries ∧ t.valueSize = .ok size := by
  unfold entries valueSize
  cases hk : t.kind with
  | struct => exact ⟨t.layout, t.size, by simp [laidOut, ht hk]⟩
  | _ => exact ⟨_, _, rfl, rfl⟩

end ConcreteType

namespace Layouts

variable {l l' : Layouts} {h : Handle}

theorem meets_typeOf (hs : l.store.Standard) (hlt : h < l.store.size) :
    Meets (onStore (TypeStore.getType h)) l (fun _ ↦ ¬l.store.Buildable h) fun t l' ↦
      l.store.Gains l'.store ∧ l'.pending = l.pending ∧ l'.store.type? h = some t := by
  rw [meets_onStore]
  exact (TypeStore.meets_getType hs hlt).imp fun t store h ↦ ⟨h.1, rfl, h.2⟩

theorem meets_placeMember (hs : l.store.Proper) {m : Member}
    (hknown : ∃ k, l.store.kindOf m.type = .ok k)
    (hready : l.store.kindOf m.type = .ok .struct → l.store.LaidOut m.type) (owner : Text)
    (c : Cursor) :
    Meets (placeMember owner c m) l (fun _ ↦ ¬l.store.Buildable m.type) fun c' l' ↦
      l.store.Gains l'.store ∧ l'.pending = l.pending ∧ ∃ n,
        l'.store.valueSize? m.type = some n ∧ c'.offset = c.offset + n ∧
        c'.members = c.members ++ [{ m with offset := c.offset, slotIndex := c.slot }] := by
  obtain ⟨k, hkind⟩ := hknown
  unfold placeMember
  rw [Stage.meets_bind]
  refine (meets_typeOf hs.toStandard (TypeStore.lt_size_of_kindOf hkind)).imp ?_
  rintro t l₁ ⟨hgains, hpending, ht⟩
  have hk : k = t.kind := by
    have := (hgains.faithful hs.faithful).kindOf ht
    rw [hgains.kindOf hkind] at this
    exact Except.ok.inj this
  have hresolved (hstruct : t.kind = .struct) : t.resolved := by
    obtain ⟨u, hu, hres⟩ := hready (by rw [hkind, hk, hstruct])
    obtain rfl : t = u := Option.some.inj (ht.symm.trans (hgains.type _ u hu))
    exact hres
  obtain ⟨entries, size, hentries, hsize⟩ := ConcreteType.exists_entries hresolved
  have hskip : ¬(t.kind = .struct ∧ !t.resolved) := fun ⟨hstruct, hres⟩ ↦ by
    simp [hresolved hstruct] at hres
  simp only [hskip, if_false, hentries, hsize, Stage.meets_bind, Stage.meets_ofExcept,
    Stage.meets_pure]
  refine ⟨hgains, hpending, size, ?_, rfl, trivial⟩
  exact Option.bind_eq_some_iff.2 ⟨t, ht, by rw [hsize]; rfl⟩

/-- The types of all members can be built, and the sizes of their values add up to less than the
address space. -/
def Layable (s : TypeStore) (t : ConcreteType) : Prop :=
  (∀ m ∈ t.members, s.Buildable m.type) ∧ ∀ s' sizes, s.Lays s' →
    List.Forall₂ (fun m n ↦ s'.valueSize? m.type = some n) t.members sizes → sizes.sum < 0x100000000

/-- The members of an aggregate are placed one after the other. -/
theorem meets_placeMembers (hs : l.store.Proper) {t : ConcreteType}
    (hknown : ∀ m ∈ t.members, ∃ k, l.store.kindOf m.type = .ok k ∧
      (k = .struct → l.store.LaidOut m.type)) :
    Meets (t.members.foldlM (placeMember t.name) {}) l (fun _ ↦ ¬Layable l.store t) fun c l' ↦
      l.store.Gains l'.store ∧ l'.pending = l.pending ∧
        ∃ sizes, l'.store.Packs c.members sizes ∧ c.offset = sizes.sum ∧
          c.members.map unplaced = t.members.map unplaced := by
  refine Stage.meets_foldlM (fun done (c : Cursor) (l' : Layouts) ↦
    l.store.Gains l'.store ∧ l'.pending = l.pending ∧
      ∃ sizes, l'.store.Packs c.members sizes ∧ c.offset = sizes.sum ∧
        c.members.map unplaced = done.map unplaced) ⟨.refl _, rfl, [], ⟨.nil, by simp⟩, rfl, rfl⟩ ?_
  rintro done m rest c l₁ hmembers ⟨hgains, hpending, sizes, hpacks, hoffset, hplaced⟩
  have hm : m ∈ t.members := by simp [hmembers]
  obtain ⟨k, hk, hlaid⟩ := hknown m hm
  have hkind := hgains.kindOf hk
  refine (meets_placeMember (hgains.lays.proper hs) ⟨k, hkind⟩ (fun hstruct ↦ ?_) t.name c).mono
    (fun _ hfail hlayable ↦ hfail (hgains.buildable (hlayable.1 m hm))) ?_
  · exact hgains.lays.laidOut (hlaid (Except.ok.inj (hkind.symm.trans hstruct)))
  · rintro c' l₂ ⟨hgains', hpending', n, hn, hoffset', hmembers'⟩
    refine ⟨hgains.trans hgains', hpending'.trans hpending, sizes ++ [n], ?_, ?_, ?_⟩
    · rw [hmembers']
      exact (hpacks.mono hgains'.lays.toExtends).concat hn hoffset
    · rw [hoffset', hoffset, List.sum_append, List.sum_singleton]
    · rw [hmembers', List.map_append, hplaced, List.map_append]
      rfl

/-- Laying out an aggregate whose struct members are laid out. -/
theorem meets_compute (hs : l.store.Proper) {t : ConcreteType} (ht : l.store.type? h = some t)
    (hres : t.resolved = false) (hready : ∀ g ∈ t.deps, l.store.LaidOut g) :
    Meets (compute t) l (fun _ ↦ ¬Layable l.store t) fun _ l' ↦
      l.store.Lays l'.store ∧ l'.pending = l.pending ∧
        (∃ t' sizes, l'.store.type? h = some t' ∧ t'.resolved ∧
          l'.store.Packs t'.members sizes ∧ t'.size = sizes.sum) ∧
        ∀ g ≠ h, ∀ u, l.store.type? g = some u → l'.store.type? g = some u := by
  have hhandle : t.handle = h := hs.faithful.handle ht
  have hne : h ≠ 0 := TypeStore.ne_zero_of_type? ht (by rintro rfl; cases hres)
  obtain ⟨a, ha, hat⟩ := TypeStore.exists_of_type? ht hne
  have hshaped := hs.shaped h a t ha hat
  have hknown (m : Member) (hm : m ∈ t.members) : ∃ k, l.store.kindOf m.type = .ok k ∧
      (k = .struct → l.store.LaidOut m.type) := by
    obtain ⟨k, hk⟩ := hshaped.known m hm
    exact ⟨k, hk, fun hstruct ↦ hready m.type ((hshaped.mem_deps _).2 ⟨m, hm, rfl, hstruct ▸ hk⟩)⟩
  unfold compute
  rw [Stage.meets_bind]
  refine (meets_placeMembers hs hknown).imp ?_
  rintro c l₁ ⟨hgains, hpending, sizes, hpacks, hoffset, hplaced⟩
  set laid : ConcreteType :=
    { t with size := c.offset, members := c.members, layout := c.layout, resolved := true }
  have hcore : laid.core = t.core := by
    show { t with members := c.members.map unplaced, size := 0, layout := [], resolved := false }
      = { t with members := t.members.map unplaced, size := 0, layout := [], resolved := false }
    rw [hplaced]
  dsimp only
  split
  · intro hlayable
    have := hlayable.2 l₁.store sizes hgains.lays
      (hpacks.each_of_types (ConcreteType.map_type_of_core hcore))
    omega
  rw [Stage.meets_bind, Stage.meets_modify]
  have hold : l₁.store.type? laid.handle = some t := hhandle ▸ hgains.type h t ht
  obtain ⟨b, hb, -⟩ := TypeStore.exists_of_type? hold (hhandle ▸ hne)
  have htype := TypeStore.type?_setType hb
  have hlays := TypeStore.lays_setType hold hcore hres
  refine ⟨hgains.lays.trans hlays, hpending, ⟨laid, sizes, ?_, rfl, ?_, hoffset⟩, ?_⟩
  · exact (htype h).trans (if_pos hhandle.symm)
  · exact hpacks.mono hlays.toExtends
  · intro g hg u hu
    exact (htype g).trans ((if_neg fun he ↦ hg (he.trans hhandle)).trans (hgains.type g u hu))

end Layouts

end WasmBackend
