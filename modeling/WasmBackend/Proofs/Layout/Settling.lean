import WasmBackend.Proofs.Layout.Packing

/-!
# Laying out whatever waits for nothing

A registered aggregate is laid out as soon as it waits for nothing, and then nothing waits for it.
So the aggregates that get a layout are those that can be settled: all they wait for can be settled
before.  Passes go on while one of them makes progress, and each that does leaves fewer aggregates
without a layout; so they come to an end by themselves.
-/

namespace WasmBackend

open Stage (Ensures Meets)

/-- The bytes a value takes when its size does not depend on a layout. -/
def Application.flatSize (a : Application) : Nat :=
  match a.template with
  | .prim q => q.size
  | _ => Prim.pointerSize

namespace TypeStore

/-- The bytes a value of the type of a handle takes, or will take once it is laid out. -/
inductive ValueSize (s : TypeStore) : Handle → Nat → Prop where
  | void : ValueSize s Handle.void 0
  | flat {h : Handle} {a : Application} (ha : s.application? h = some a)
      (hkind : a.template.kind s.program ≠ .struct) : ValueSize s h a.flatSize
  | laidOut {h : Handle} {t : ConcreteType} (ht : s.type? h = some t) (hkind : t.kind = .struct)
      (hres : t.resolved) : ValueSize s h t.size
  | struct {h : Handle} {t : ConcreteType} {sizes : List Nat} (ht : s.type? h = some t)
      (hkind : t.kind = .struct)
      (hsizes : List.Forall₂ (ValueSize s) (t.members.map Member.type) sizes) :
      ValueSize s h sizes.sum

variable {s s' : TypeStore} {h : Handle}

theorem laidOut_iff : s.LaidOut h ↔ (s.type? h).any ConcreteType.resolved := by
  unfold LaidOut
  cases s.type? h <;> simp

theorem LaidOut.resolved (hl : s.LaidOut h) {t : ConcreteType} (ht : s.type? h = some t) :
    t.resolved := by
  obtain ⟨u, hu, hres⟩ := hl
  cases ht.symm.trans hu
  exact hres

theorem laidOut_congr (h : Handle) (hsame : s'.type? h = s.type? h) :
    s'.LaidOut h ↔ s.LaidOut h := by
  unfold LaidOut
  rw [hsame]

theorem Proper.valueSize?_eq (hs : s.Proper) {a : Application} (ha : s.application? h = some a)
    (hkind : a.template.kind s.program ≠ .struct) {n : Nat} (hn : s.valueSize? h = some n) :
    n = a.flatSize := by
  obtain ⟨t, ht, hsize⟩ := Option.bind_eq_some_iff.1 hn
  have hat : a.type = some t := (type?_eq ha).symm.trans ht
  have hk : t.kind = a.template.kind s.program := (hs.faithful.fits ha ht).2.kind
  have hprim := (hs.shaped h a t ha hat).prim
  unfold ConcreteType.valueSize at hsize
  unfold Application.flatSize
  obtain ⟨q, -, hq⟩ | hq | hq | ⟨id, hq⟩ := (hs.native ha).cases <;>
    simp only [hq, Template.kind] at hk hkind ⊢
  · rw [hk, hprim q hq] at hsize
    exact (Option.some.inj hsize).symm
  · rw [hk] at hsize
    exact (Option.some.inj hsize).symm
  · rw [hk] at hsize
    exact (Option.some.inj hsize).symm
  · split at hk
    · rw [hk] at hsize
      exact (Option.some.inj hsize).symm
    · exact absurd (if_neg ‹_›) hkind

theorem LaidOut.valueSize?_eq (hl : s.LaidOut h) {t : ConcreteType} (ht : s.type? h = some t)
    (hkind : t.kind = .struct) {n : Nat} (hn : s.valueSize? h = some n) : n = t.size := by
  obtain ⟨u, hu, hsize⟩ := Option.bind_eq_some_iff.1 hn
  cases ht.symm.trans hu
  simp only [ConcreteType.valueSize, hkind, ConcreteType.laidOut, hl.resolved ht, if_true] at hsize
  exact (Option.some.inj hsize).symm

/-- A type that is built is returned as it is. -/
theorem getType_of_type? {t : ConcreteType} (ht : s.type? h = some t) :
    getType h s = (.ok t, s) := by
  have hdepth : 2 * s.size + 2 = (2 * s.size + 1) + 1 := rfl
  show getWithin (2 * s.size + 2) h s = _
  rw [hdepth]
  obtain rfl | hh := eq_or_ne h 0
  · cases ht
    rfl
  · obtain ⟨a, ha, hat⟩ := exists_of_type? ht hh
    unfold getWithin
    rw [if_neg hh]
    simp only [Stage.bind_apply, Stage.get_apply, ha, hat]
    rfl

end TypeStore

namespace Layouts

variable {l₀ l l' : Layouts} {h : Handle}

theorem typeOf_of_type? {t : ConcreteType} (ht : l.store.type? h = some t) :
    onStore (TypeStore.getType h) l = (.ok t, l) := by
  unfold onStore Stage.zoom
  rw [TypeStore.getType_of_type? ht]

theorem meets_typeOf_of_type? {t : ConcreteType} (ht : l.store.type? h = some t)
    {err : Failure → Prop} {post : ConcreteType → Layouts → Prop} :
    Meets (onStore (TypeStore.getType h)) l err post ↔ post t l := by
  unfold Meets
  rw [typeOf_of_type? ht]

/-! ## What aggregates wait for -/

theorem waitsFor_map (pending : List (Handle × List Handle)) (store : TypeStore)
    (f : List Handle → List Handle) (hf : f [] = []) (h : Handle) :
    waitsFor { store := store, pending := pending.map fun (other, deps) ↦ (other, f deps) } h =
      f (waitsFor { store := store, pending := pending } h) := by
  unfold waitsFor
  induction pending with
  | nil => exact hf.symm
  | cons x pending ih =>
    rw [List.map_cons, List.lookup_cons, List.lookup_cons]
    split
    · rfl
    · exact ih

theorem waitsFor_eq_nil (hreg : h ∉ l.registered) : l.waitsFor h = [] := by
  unfold waitsFor
  cases hl : l.pending.lookup h with
  | none => rfl
  | some deps => exact absurd (mem_registered_of_lookup (by rw [hl]; rfl)) hreg

/-- Every registered aggregate is built; it waits for structs it contains, and those it contains
and does not wait for are laid out.  What it waits for is registered or laid out. -/
structure Consistent (l : Layouts) : Prop where
  proper : l.store.Proper
  nodup : l.registered.Nodup
  contained : ∀ h ∈ l.registered, ∃ t, l.store.type? h = some t ∧
    (∀ d ∈ l.waitsFor h, d ∈ t.deps) ∧ ∀ d ∈ t.deps, d ∈ l.waitsFor h ∨ l.store.LaidOut d
  known : ∀ h ∈ l.registered, ∀ d ∈ l.waitsFor h, d ∈ l.registered ∨ l.store.LaidOut d

/-- All that a registered aggregate waits for can be laid out before it. -/
inductive Settleable (l : Layouts) : Handle → Prop where
  | intro {h : Handle} (hreg : h ∈ l.registered) (hopen : ¬l.store.LaidOut h)
      (hwaits : ∀ d ∈ l.waitsFor h, Settleable l d) : Settleable l h

/-- What is to be laid out can be: the types of members can be built, and sizes are in range. -/
def Feasible (l : Layouts) : Prop :=
  ∀ h t, l.Settleable h → l.store.type? h = some t → (∀ m ∈ t.members, l.store.Buildable m.type) ∧
    ∀ sizes, List.Forall₂ l.store.ValueSize (t.members.map Member.type) sizes →
      sizes.sum < 0x100000000

/-- The aggregates without a layout. -/
def unsettled (l : Layouts) : List Handle :=
  l.registered.filter fun h ↦ !(l.store.type? h).any ConcreteType.resolved

theorem mem_unsettled : h ∈ l.unsettled ↔ h ∈ l.registered ∧ ¬l.store.LaidOut h := by
  simp [unsettled, TypeStore.laidOut_iff]

/-- The layouts `l` that passes lead to from `l₀`.  What was laid out in between could be settled,
has its members packed, and is waited for no more. -/
structure Proceeds (l₀ l : Layouts) : Prop where
  lays : l₀.store.Lays l.store
  registered : l.registered = l₀.registered
  waits : ∀ h ∈ l₀.registered, ∀ d, d ∈ l.waitsFor h ↔
    d ∈ l₀.waitsFor h ∧ ¬(l.store.LaidOut d ∧ ¬l₀.store.LaidOut d)
  kept : ∀ h t, l₀.store.type? h = some t → l.store.type? h = some t ∨
    h ∈ l₀.registered ∧ l.store.LaidOut h
  settled : ∀ h ∈ l₀.registered, l.store.LaidOut h → l₀.store.LaidOut h ∨
    l₀.Settleable h ∧ ∃ t sizes, l.store.type? h = some t ∧ l.store.Packs t.members sizes ∧
      t.size = sizes.sum ∧ List.Forall₂ l₀.store.ValueSize (t.members.map Member.type) sizes

theorem Proceeds.refl (l₀ : Layouts) : l₀.Proceeds l₀ where
  lays := .refl _
  registered := rfl
  waits := fun _ _ _ ↦ by simp
  kept := fun _ _ ht ↦ .inl ht
  settled := fun _ _ hl ↦ .inl hl

variable (hl₀ : l₀.Consistent)

include hl₀

theorem Consistent.isBuilt {d : Handle} (hd : d ∈ l₀.registered ∨ l₀.store.LaidOut d) :
    ∃ t, l₀.store.type? d = some t := by
  obtain hreg | ⟨t, ht, -⟩ := hd
  · obtain ⟨t, ht, -⟩ := hl₀.contained d hreg
    exact ⟨t, ht⟩
  · exact ⟨t, ht⟩

omit hl₀ in
theorem Proceeds.type?_eq (hp : l₀.Proceeds l) {t : ConcreteType} (ht : l₀.store.type? h = some t)
    (hopen : ¬l.store.LaidOut h) : l.store.type? h = some t :=
  (hp.kept h t ht).resolve_right fun hl ↦ hopen hl.2

/-- A member has the size it was to have, also while an aggregate is laid out. -/
theorem Proceeds.valueSize (hp : l₀.Proceeds l) {g : Handle} {k : TypeKind}
    (hk : l₀.store.kindOf g = .ok k)
    (hready : k = .struct → l.store.LaidOut g ∧ (g ∈ l₀.registered ∨ l₀.store.LaidOut g))
    {s : TypeStore} (hlays : l.store.Lays s) {n : Nat} (hn : s.valueSize? g = some n) :
    l₀.store.ValueSize g n := by
  have hs := hp.lays.trans hlays
  have hproper := hs.proper hl₀.proper
  obtain rfl | hg := eq_or_ne g 0
  · obtain rfl := Option.some.inj hn
    exact .void
  obtain ⟨a, ha⟩ := TypeStore.exists_application hg (TypeStore.lt_size_of_kindOf hk)
  obtain ⟨b, hb, htemplate, -⟩ := hs.application? ha
  obtain rfl : a.template.kind l₀.store.program = k :=
    Except.ok.inj ((TypeStore.kindOf_eq ha).symm.trans hk)
  by_cases hstruct : a.template.kind l₀.store.program = .struct
  · obtain ⟨⟨u, hu, hres⟩, hbefore⟩ := hready hstruct
    obtain ⟨u', hu', -, hsame⟩ := hlays.type g u hu
    obtain rfl := hsame hres
    have hkind : u'.kind = .struct := by
      rw [(hproper.faithful.fits hb hu').2.kind, htemplate, hs.program, hstruct]
    obtain rfl := TypeStore.LaidOut.valueSize?_eq ⟨u', hu', hres⟩ hu' hkind hn
    obtain ⟨v, hv⟩ := hl₀.isBuilt hbefore
    obtain ⟨w, hw, hcore, hsame₀⟩ := hp.lays.type g v hv
    cases hu.symm.trans hw
    have hkind' : v.kind = .struct := (congrArg (fun c ↦ c.kind) hcore).symm.trans hkind
    by_cases hlaid₀ : l₀.store.LaidOut g
    · have hres₀ := hlaid₀.resolved hv
      rw [hsame₀ hres₀]
      exact .laidOut hv hkind' hres₀
    · obtain hold | ⟨-, t, sizes, ht, -, hsum, hsizes⟩ :=
        hp.settled g (hbefore.resolve_right hlaid₀) ⟨u', hu, hres⟩
      · exact absurd hold hlaid₀
      · cases hu.symm.trans ht
        rw [hsum]
        refine .struct hv hkind' ?_
        rwa [← ConcreteType.map_type_of_core hcore]
  · have hflat := hproper.valueSize?_eq hb (by rwa [htemplate, hs.program]) hn
    have : b.flatSize = a.flatSize := by
      unfold Application.flatSize
      rw [htemplate]
    rw [hflat, this]
    exact .flat ha hstruct

/-! ## One aggregate -/

omit hl₀ in
/-- What a registered aggregate no longer waits for is laid out. -/
theorem Proceeds.laidOut_of_waits (hp : l₀.Proceeds l) (hreg : h ∈ l₀.registered)
    (hwaits : l.waitsFor h = []) {d : Handle} (hd : d ∈ l₀.waitsFor h) :
    l.store.LaidOut d ∧ ¬l₀.store.LaidOut d := by
  by_contra hnot
  have := (hp.waits h hreg d).2 ⟨hd, hnot⟩
  simp [hwaits] at this

/-- An aggregate that waits for nothing could be settled, and all it contains is laid out. -/
theorem Proceeds.settleable (hp : l₀.Proceeds l) (hreg : h ∈ l₀.registered)
    (hopen : ¬l.store.LaidOut h) (hwaits : l.waitsFor h = []) : l₀.Settleable h := by
  refine .intro hreg (fun hl ↦ hopen (hp.lays.laidOut hl)) fun d hd ↦ ?_
  obtain ⟨hlaid, hnot⟩ := hp.laidOut_of_waits hreg hwaits hd
  have hd' := (hl₀.known h hreg d hd).resolve_right hnot
  exact ((hp.settled d hd' hlaid).resolve_left hnot).1

/-- Laying out an aggregate that waits for nothing, and waiting for it no more. -/
theorem Proceeds.settle {l₁ : Layouts} (hp : l₀.Proceeds l) (hreg : h ∈ l₀.registered)
    (hopen : ¬l.store.LaidOut h) (hwaits : l.waitsFor h = []) (hlays : l.store.Lays l₁.store)
    (hpending : l₁.pending = l.pending) {t : ConcreteType} {sizes : List Nat}
    (ht : l₁.store.type? h = some t) (hres : t.resolved) (hpacks : l₁.store.Packs t.members sizes)
    (hsize : t.size = sizes.sum)
    (hsizes : List.Forall₂ l₀.store.ValueSize (t.members.map Member.type) sizes)
    (hothers : ∀ g ≠ h, ∀ u, l.store.type? g = some u → l₁.store.type? g = some u) :
    l₀.Proceeds { l₁ with
      pending := l₁.pending.map fun (other, deps) ↦ (other, deps.filter (· ≠ h)) } := by
  have hlaid : l₁.store.LaidOut h := ⟨t, ht, hres⟩
  -- what was built before and is not `h` has a layout now exactly if it had one
  have hsame {g : Handle} {u : ConcreteType} (hg : g ≠ h) (hu : l₀.store.type? g = some u) :
      l₁.store.LaidOut g ↔ l.store.LaidOut g := by
    obtain ⟨u', hu', -⟩ := hp.lays.type g u hu
    exact TypeStore.laidOut_congr g ((hothers g hg u' hu').trans hu'.symm)
  constructor
  case lays => exact hp.lays.trans hlays
  case registered =>
    rw [← hp.registered]
    show (l₁.pending.map _).map Prod.fst = l.pending.map Prod.fst
    rw [hpending, List.map_map]
    rfl
  case waits =>
    intro g hg d
    have hfilter := waitsFor_map l₁.pending l₁.store (fun deps ↦ deps.filter (· ≠ h)) rfl g
    have hold : waitsFor { store := l₁.store, pending := l₁.pending } g = l.waitsFor g := by
      rw [waitsFor, waitsFor, hpending]
    rw [hfilter, hold, List.mem_filter, hp.waits g hg d, decide_eq_true_eq, and_assoc]
    refine and_congr_right fun hd ↦ ?_
    obtain ⟨u, hu⟩ := hl₀.isBuilt (hl₀.known g hg d hd)
    by_cases hdh : d = h
    · subst hdh
      have hopen₀ : ¬l₀.store.LaidOut d := fun hl ↦ hopen (hp.lays.laidOut hl)
      simp [hlaid, hopen₀]
    · simp [hdh, hsame hdh hu]
  case kept =>
    intro g u hu
    by_cases hg : g = h
    · subst hg
      exact .inr ⟨hreg, hlaid⟩
    · exact (hp.kept g u hu).imp (hothers g hg u) fun ⟨hg', hl⟩ ↦ ⟨hg', (hsame hg hu).2 hl⟩
  case settled =>
    intro g hg hl
    by_cases hgh : g = h
    · subst hgh
      exact .inr ⟨hp.settleable hl₀ hreg hopen hwaits, t, sizes, ht, hpacks, hsize, hsizes⟩
    · obtain ⟨u, hu⟩ := hl₀.isBuilt (.inl hg)
      refine (hp.settled g hg ((hsame hgh hu).1 hl)).imp_right ?_
      rintro ⟨hsettleable, v, sizes', hv, hpacks', hsize', hsizes'⟩
      have hkept := hpacks'.mono hlays.toExtends
      exact ⟨hsettleable, v, sizes', hothers g hgh v hv, hkept, hsize', hsizes'⟩

theorem meets_settle (hp : l₀.Proceeds l) (hreg : h ∈ l₀.registered) :
    Meets (settle h) l (fun _ ↦ ¬l₀.Feasible) fun progress l' ↦ l₀.Proceeds l' ∧
      (progress = false → l' = l ∧ (l.store.LaidOut h ∨ l.waitsFor h ≠ [])) ∧
      (progress = true → ¬l.store.LaidOut h ∧ l'.store.LaidOut h ∧ l.store.Extends l'.store) := by
  obtain ⟨t₀, ht₀, -, hdeps⟩ := hl₀.contained h hreg
  obtain ⟨t, ht, hcore, -⟩ := hp.lays.type h t₀ ht₀
  unfold Layouts.settle
  rw [Stage.meets_bind, meets_typeOf_of_type? ht, Stage.meets_bind, Stage.meets_get]
  refine Stage.meets_ite.2 ⟨fun hskip ↦ ?_, fun hwait ↦ ?_⟩
  · refine ⟨hp, fun _ ↦ ⟨rfl, hskip.imp_left fun hres ↦ ⟨t, ht, hres⟩⟩, nofun⟩
  obtain ⟨hres, hwaits⟩ : t.resolved = false ∧ l.waitsFor h = [] := by simpa using hwait
  have hopen : ¬l.store.LaidOut h := fun hl ↦ by simp [hl.resolved ht] at hres
  obtain rfl : t = t₀ := Option.some.inj (ht.symm.trans (hp.type?_eq ht₀ hopen))
  have hready (g : Handle) (hg : g ∈ t.deps) :
      l.store.LaidOut g ∧ (g ∈ l₀.registered ∨ l₀.store.LaidOut g) := by
    obtain hw | hlaid := hdeps g hg
    · exact ⟨(hp.laidOut_of_waits hreg hwaits hw).1, hl₀.known h hreg g hw⟩
    · exact ⟨hp.lays.laidOut hlaid, .inr hlaid⟩
  have hh : h ≠ 0 := TypeStore.ne_zero_of_type? ht (by rintro rfl; cases hres)
  obtain ⟨a, ha, hat⟩ := TypeStore.exists_of_type? ht₀ hh
  have hshaped := hl₀.proper.shaped h a t ha hat
  have hvalues {s : TypeStore} (hlays : l.store.Lays s) {sizes : List Nat}
      (hsizes : List.Forall₂ (fun m n ↦ s.valueSize? m.type = some n) t.members sizes) :
      List.Forall₂ l₀.store.ValueSize (t.members.map Member.type) sizes := by
    refine List.forall₂_map_left_iff.2 (Stage.forall₂_imp_of_mem hsizes fun m hm n hn ↦ ?_)
    obtain ⟨k, hk⟩ := hshaped.known m hm
    refine hp.valueSize hl₀ hk (fun hstruct ↦ hready m.type ?_) hlays hn
    exact (hshaped.mem_deps _).2 ⟨m, hm, rfl, hstruct ▸ hk⟩
  have hlayable (hfeasible : l₀.Feasible) : Layable l.store t := by
    obtain ⟨hbuild, hbound⟩ := hfeasible h t (hp.settleable hl₀ hreg hopen hwaits) ht₀
    exact ⟨fun m hm ↦ hp.lays.buildable _ (hbuild m hm),
      fun s sizes hlays hsizes ↦ hbound sizes (hvalues hlays hsizes)⟩
  show Meets (discard (compute t) >>= _) _ _ _
  rw [Stage.meets_bind]
  show Meets ((fun _ ↦ PUnit.unit) <$> compute t) _ _ _
  rw [Stage.meets_map]
  refine (meets_compute (hp.lays.proper hl₀.proper) ht hres fun g hg ↦ (hready g hg).1).mono
    (fun _ hfail hfeasible ↦ hfail (hlayable hfeasible)) ?_
  rintro _ l₁ ⟨hlays, hpending, ⟨t', sizes, ht', hres', hpacks, hsize⟩, hothers⟩
  obtain ⟨u, hu, hcore', -⟩ := hlays.type h t ht
  cases ht'.symm.trans hu
  have htypes := ConcreteType.map_type_of_core hcore'
  have hsizes : List.Forall₂ l₀.store.ValueSize (t'.members.map Member.type) sizes := by
    rw [htypes]
    exact hvalues hlays (hpacks.each_of_types htypes)
  refine ⟨hp.settle hl₀ hreg hopen hwaits hlays hpending ht' hres' hpacks hsize hsizes hothers,
    nofun, fun _ ↦ ⟨hopen, ⟨t', ht', hres'⟩, hlays.toExtends⟩⟩

/-! ## Passes -/

omit hl₀ in
/-- Whatever has no layout later has none before. -/
theorem unsettled_eq_filter (hregistered : l'.registered = l.registered)
    (hext : l.store.Extends l'.store) :
    l'.unsettled = l.unsettled.filter fun h ↦ !(l'.store.type? h).any ConcreteType.resolved := by
  unfold unsettled
  rw [hregistered, List.filter_filter]
  refine List.filter_congr fun h _ ↦ ?_
  by_cases hl : (l.store.type? h).any ConcreteType.resolved
  · have hl' := TypeStore.laidOut_iff.1 (hext.laidOut (TypeStore.laidOut_iff.2 hl))
    rw [hl, hl']
    rfl
  · simp [hl]

/-- A pass settles what it can; one without progress leaves all as it was, and everything that is
not laid out waits for something. -/
theorem meets_settleAll (hp : l₀.Proceeds l) :
    Meets settleAll l (fun _ ↦ ¬l₀.Feasible) fun progress l' ↦ l₀.Proceeds l' ∧
      (progress = false → l' = l ∧ ∀ h ∈ l₀.registered, l.store.LaidOut h ∨ l.waitsFor h ≠ []) ∧
      (progress = true → l'.unsettled.length < l.unsettled.length) := by
  unfold settleAll
  rw [Stage.meets_bind, Stage.meets_get, hp.registered]
  refine (Stage.meets_foldlM (fun done progress l' ↦ l₀.Proceeds l' ∧
    l'.unsettled.length ≤ l.unsettled.length ∧
      (progress = false → l' = l ∧ ∀ h ∈ done, l.store.LaidOut h ∨ l.waitsFor h ≠ []) ∧
      (progress = true → l'.unsettled.length < l.unsettled.length))
    ⟨hp, le_rfl, fun _ ↦ ⟨rfl, by simp⟩, fun h ↦ absurd h Bool.false_ne_true⟩ ?_).imp
      fun _ _ h ↦ ⟨h.1, h.2.2⟩
  rintro done h rest progress l₁ hall ⟨hp₁, hle, hidle, hless⟩
  have hreg : h ∈ l₀.registered := by simp [hall]
  rw [Stage.meets_bind]
  refine (meets_settle hl₀ hp₁ hreg).imp ?_
  rintro settled l₂ ⟨hp₂, hskip, hsettle⟩
  rw [Stage.meets_pure]
  cases settled with
  | true =>
    obtain ⟨hopen, hlaid, hext⟩ := hsettle rfl
    have hlt : l₂.unsettled.length < l₁.unsettled.length := by
      rw [unsettled_eq_filter (hp₂.registered.trans hp₁.registered.symm) hext]
      refine List.length_filter_lt_length_iff_exists.2
        ⟨h, mem_unsettled.2 ⟨hp₁.registered ▸ hreg, hopen⟩, ?_⟩
      simp [TypeStore.laidOut_iff.1 hlaid]
    exact ⟨hp₂, (hlt.trans_le hle).le, nofun, fun _ ↦ hlt.trans_le hle⟩
  | false =>
    obtain ⟨rfl, hwaits⟩ := hskip rfl
    refine ⟨hp₂, hle, fun hprogress ↦ ?_, hless⟩
    obtain ⟨rfl, hdone⟩ := hidle hprogress
    refine ⟨rfl, fun g hg ↦ ?_⟩
    obtain hg | hg := List.mem_append.1 hg
    · exact hdone g hg
    · exact List.mem_singleton.1 hg ▸ hwaits

/-- With more rounds than aggregates without a layout, everything that is not laid out in the end
waits for something. -/
theorem meets_settleRounds (hp : l₀.Proceeds l) {rounds : Nat}
    (hrounds : l.unsettled.length < rounds) :
    Meets (settleRounds rounds) l (fun _ ↦ ¬l₀.Feasible) fun _ l' ↦ l₀.Proceeds l' ∧
      ∀ h ∈ l₀.registered, l'.store.LaidOut h ∨ l'.waitsFor h ≠ [] := by
  induction rounds generalizing l with
  | zero => exact absurd hrounds (Nat.not_lt_zero _)
  | succ rounds ih =>
    unfold settleRounds
    rw [Stage.meets_bind]
    refine (meets_settleAll hl₀ hp).imp ?_
    rintro progress l₁ ⟨hp₁, hidle, hless⟩
    cases progress with
    | false =>
      obtain ⟨rfl, hwaits⟩ := hidle rfl
      exact ⟨hp₁, hwaits⟩
    | true => exact ih hp₁ ((hless rfl).trans_le (Nat.le_of_lt_succ hrounds))

/-- More rounds than aggregates without a layout change nothing. -/
theorem settleRounds_eq (hp : l₀.Proceeds l) {rounds rounds' : Nat}
    (hrounds : l.unsettled.length < rounds) (hrounds' : l.unsettled.length < rounds') :
    settleRounds rounds l = settleRounds rounds' l := by
  induction rounds generalizing l rounds' with
  | zero => exact absurd hrounds (Nat.not_lt_zero _)
  | succ rounds ih =>
    have hsome : rounds' ≠ 0 := Nat.ne_of_gt (Nat.zero_lt_of_lt hrounds')
    obtain ⟨rounds', rfl⟩ := Nat.exists_eq_succ_of_ne_zero hsome
    have hall := meets_settleAll hl₀ hp
    unfold settleRounds
    rw [Stage.bind_apply, Stage.bind_apply]
    unfold Meets at hall
    rcases hx : settleAll l with ⟨_ | progress, l₁⟩
    · rfl
    · rw [hx] at hall
      obtain ⟨hp₁, -, hless⟩ := hall
      cases progress with
      | false => rfl
      | true =>
        have hlt := hless rfl
        exact ih hp₁ (hlt.trans_le (Nat.le_of_lt_succ hrounds))
          (hlt.trans_le (Nat.le_of_lt_succ hrounds'))

omit hl₀ in
/-- When everything that is not laid out waits for something, what has a layout had one before or
could be settled. -/
theorem Proceeds.laidOut_iff (hp : l₀.Proceeds l)
    (hwaits : ∀ h ∈ l₀.registered, l.store.LaidOut h ∨ l.waitsFor h ≠ [])
    (hreg : h ∈ l₀.registered) :
    l.store.LaidOut h ↔ l₀.store.LaidOut h ∨ l₀.Settleable h := by
  constructor
  · intro hl
    exact (hp.settled h hreg hl).imp_right And.left
  · rintro (hl | hs)
    · exact hp.lays.laidOut hl
    · induction hs with
      | @intro h hreg hopen hneeds ih =>
        refine (hwaits h hreg).resolve_right (not_not.2 (List.eq_nil_iff_forall_not_mem.2 ?_))
        intro d hd
        obtain ⟨hd, hnot⟩ := (hp.waits h hreg d).1 hd
        obtain ⟨hdreg, hdopen, -⟩ := hneeds d hd
        exact hnot ⟨ih d hd hdreg, hdopen⟩

end Layouts

end WasmBackend
