import WasmBackend.Layout
import WasmBackend.Proofs.Types.Building

/-!
# Resolving layouts

An aggregate that is added to the layouts has its type built from then on, and either waits for its
layout or has one.  Laying out an aggregate changes nothing of its type but the layout, so the store
advances.  When the passes are over, every registered aggregate has a layout or is among those left
over.
-/

namespace WasmBackend.Layouts

open Stage (Ensures Meets)

variable {l l' l'' : Layouts} {h : Handle}

theorem meets_onStore {α : Type} {x : TypeStore.M α} {err : Failure → Prop}
    {post : α → Layouts → Prop} :
    Meets (onStore x) l err post ↔
      Meets x l.store err fun a store ↦ post a { l with store := store } :=
  Stage.meets_zoom

/-- The same layouts later on. -/
structure Grows (l l' : Layouts) : Prop where
  store : l.store.Advances l'.store
  registered : l.registered ⊆ l'.registered

theorem Grows.refl (l : Layouts) : l.Grows l :=
  ⟨.refl _, fun _ h ↦ h⟩

theorem Grows.trans (h₁ : l.Grows l') (h₂ : l'.Grows l'') : l.Grows l'' :=
  ⟨h₁.store.trans h₂.store, fun _ h ↦ h₂.registered (h₁.registered h)⟩

theorem grows_store {store : TypeStore} (hadv : l.store.Advances store) :
    l.Grows { l with store := store } :=
  ⟨hadv, fun _ h ↦ h⟩

/-- The type is no aggregate, or it waits for its layout unless it has one. -/
def Known (l : Layouts) (h : Handle) : Prop :=
  ∃ k, l.store.kindOf h = .ok k ∧
    (k.isAggregate → h ∈ l.registered ∨ ∃ t, l.store.type? h = some t ∧ t.resolved)

theorem Grows.known (hg : l.Grows l') (hk : l.Known h) : l'.Known h := by
  obtain ⟨k, hkind, hagg⟩ := hk
  refine ⟨k, hg.store.kindOf hkind, fun hk ↦ ?_⟩
  obtain hreg | ⟨t, ht, hres⟩ := hagg hk
  · exact .inl (hg.registered hreg)
  · obtain ⟨t', ht', -, hsame⟩ := hg.store.type h t ht
    exact .inr ⟨t', ht', hsame hres ▸ hres⟩

theorem mem_registered_of_lookup (hl : (l.pending.lookup h).isSome) : h ∈ l.registered := by
  obtain ⟨deps, hdeps⟩ := Option.isSome_iff_exists.1 hl
  obtain ⟨before, after, happend, -⟩ := List.lookup_eq_some_iff.1 hdeps
  simp [registered, happend]

theorem ensures_addWithin (depth : Nat) (h : Handle) :
    Ensures (addWithin depth h) l fun _ l' ↦ l.Grows l' ∧ l'.Known h := by
  induction depth generalizing h l with
  | zero => trivial
  | succ depth ih =>
    unfold addWithin
    rw [Ensures, Stage.meets_bind, Stage.meets_get, Stage.meets_bind, Stage.meets_ofExcept]
    cases hkind : l.store.kindOf h with
    | error e => trivial
    | ok k =>
      simp only
      by_cases hk : k.isAggregate
      swap
      · simp only [hk, Bool.not_false, if_true, Stage.meets_pure]
        exact ⟨.refl l, k, hkind, fun h ↦ absurd h hk⟩
      simp only [hk, Bool.not_true, Bool.false_eq_true, if_false, Stage.meets_bind, Stage.meets_get]
      by_cases hreg : (l.pending.lookup h).isSome
      · simp only [hreg, if_true, Stage.meets_pure]
        exact ⟨.refl l, k, hkind, fun _ ↦ .inl (mem_registered_of_lookup hreg)⟩
      simp only [hreg, Bool.false_eq_true, if_false, Stage.meets_bind, meets_onStore]
      refine (TypeStore.builds_getType h l.store).imp ?_
      rintro t store ⟨hadv, ht⟩
      by_cases hres : t.resolved
      · simp only [hres, if_true, Stage.meets_pure]
        exact ⟨grows_store hadv, k, hadv.kindOf hkind, fun _ ↦ .inr ⟨t, ht, hres⟩⟩
      simp only [hres, Bool.false_eq_true, if_false, Stage.meets_bind, Stage.meets_modify]
      let waiting : Layouts := { l with store := store, pending := l.pending ++ [(h, t.deps)] }
      have hwait : l.Grows waiting := ⟨hadv, by simp [registered, waiting]⟩
      have hknown : waiting.Known h :=
        ⟨k, hadv.kindOf hkind, fun _ ↦ .inl (by simp [registered, waiting])⟩
      refine (Stage.meets_forIn (fun _ _ l' ↦ waiting.Grows l') (.refl waiting) ?_).imp ?_
      · rintro done d rest _ l' - hgrows
        rw [Stage.meets_bind]
        refine (ih d).imp ?_
        rintro _ l'' ⟨hgrows', -⟩
        exact ⟨_, rfl, hgrows.trans hgrows'⟩
      · rintro _ l' hgrows
        exact ⟨hwait.trans hgrows, hgrows.known hknown⟩

/-- Adding a type leaves it known to the layouts. -/
theorem ensures_add (h : Handle) : Ensures (add h) l fun _ l' ↦ l.Grows l' ∧ l'.Known h :=
  ensures_addWithin _ h

end WasmBackend.Layouts

namespace WasmBackend

open Stage (Ensures)

/-- The type of a handle is built and has its layout. -/
def TypeStore.LaidOut (s : TypeStore) (h : Handle) : Prop :=
  ∃ t, s.type? h = some t ∧ t.resolved

theorem TypeStore.Extends.laidOut {s s' : TypeStore} {h : Handle} (hext : s.Extends s')
    (hh : s.LaidOut h) : s'.LaidOut h := by
  obtain ⟨t, ht, hres⟩ := hh
  obtain ⟨t', ht', -, hsame⟩ := hext.type h t ht
  exact ⟨t', ht', hsame hres ▸ hres⟩

namespace Layouts

variable {l l' l'' : Layouts} {h : Handle}

/-- The same layouts later on, with the same aggregates registered. -/
structure Settles (l l' : Layouts) : Prop where
  store : l.store.Advances l'.store
  registered : l'.registered = l.registered

theorem Settles.refl (l : Layouts) : l.Settles l :=
  ⟨.refl _, rfl⟩

theorem Settles.trans (h₁ : l.Settles l') (h₂ : l'.Settles l'') : l.Settles l'' :=
  ⟨h₁.store.trans h₂.store, h₂.registered.trans h₁.registered⟩

theorem Settles.faithful (hl : l.Settles l') (hs : l.store.Faithful) : l'.store.Faithful :=
  hl.store.faithful hs

theorem ensures_typeOf (h : Handle) :
    Ensures (onStore (TypeStore.getType h)) l fun t l' ↦
      l.Settles l' ∧ l'.store.type? h = some t := by
  rw [Ensures, meets_onStore]
  refine (TypeStore.builds_getType h l.store).imp ?_
  rintro t store ⟨hadv, ht⟩
  exact ⟨⟨hadv, rfl⟩, ht⟩

/-! ## One aggregate -/

/-- A member without its place. -/
def unplaced (m : Member) : Member :=
  { m with offset := 0, slotIndex := 0 }

theorem ensures_placeMember (owner : Text) (c : Cursor) (m : Member) :
    Ensures (placeMember owner c m) l fun c' l' ↦
      l.Settles l' ∧ c'.members.map unplaced = c.members.map unplaced ++ [unplaced m] := by
  unfold placeMember
  rw [Ensures, Stage.meets_bind]
  refine (ensures_typeOf m.type).imp ?_
  rintro t l₁ ⟨hl₁, -⟩
  have place : Ensures (do
      let entries ← Stage.ofExcept t.entries
      let size ← Stage.ofExcept t.valueSize
      return ({
        offset := c.offset + size
        slot := c.slot + entries.length
        members := c.members ++ [{ m with offset := c.offset, slotIndex := c.slot }]
        layout := c.layout ++ entries.map fun e ↦ { e with offset := c.offset + e.offset } } :
        Cursor)) l₁ fun c' l' ↦
      l.Settles l' ∧ c'.members.map unplaced = c.members.map unplaced ++ [unplaced m] := by
    rw [Ensures, Stage.meets_bind, Stage.meets_ofExcept]
    cases t.entries with
    | error e => trivial
    | ok entries =>
      simp only
      rw [Stage.meets_bind, Stage.meets_ofExcept]
      cases t.valueSize with
      | error e => trivial
      | ok size => exact ⟨hl₁, by simp [unplaced]⟩
  dsimp only
  split
  · trivial
  · exact place

/-- Laying out an aggregate changes nothing of its type but the layout. -/
theorem ensures_compute (hs : l.store.Faithful) {t : ConcreteType}
    (ht : l.store.type? h = some t) (hres : t.resolved = false) :
    Ensures (compute t) l fun _ l' ↦ l.Settles l' := by
  have hhandle : t.handle = h := hs.handle ht
  have hh : h ≠ 0 := TypeStore.ne_zero_of_type? ht (by rintro rfl; cases hres)
  obtain ⟨a, ha, -⟩ := Option.bind_eq_some_iff.1 (by simpa [TypeStore.type?, hh] using ht)
  unfold compute
  rw [Ensures, Stage.meets_bind]
  refine (Stage.meets_foldlM (fun done c l' ↦
    l.Settles l' ∧ c.members.map unplaced = done.map unplaced) ⟨.refl l, rfl⟩ ?_).imp ?_
  · rintro done m rest c l₁ - ⟨hl₁, hmembers⟩
    refine (ensures_placeMember t.name c m).imp ?_
    rintro c' l₂ ⟨hl₂, hplaced⟩
    exact ⟨hl₁.trans hl₂, by rw [hplaced, hmembers, List.map_append]; rfl⟩
  · rintro c l₁ ⟨hl₁, hmembers⟩
    dsimp only
    split
    · trivial
    rw [Stage.meets_bind, Stage.meets_modify]
    set laid : ConcreteType :=
      { t with size := c.offset, members := c.members, layout := c.layout, resolved := true }
    have hcore : laid.core = t.core := by
      show { t with members := c.members.map unplaced, size := 0, layout := [], resolved := false }
        = { t with members := t.members.map unplaced, size := 0, layout := [], resolved := false }
      rw [hmembers]
    obtain ⟨a', ha', -⟩ := hl₁.store.application? ha
    obtain ⟨t', ht', hcore', -⟩ := hl₁.store.type h t ht
    refine ⟨TypeStore.advances_setType (fun u hu ↦ ?_) hl₁.store (hhandle ▸ ha') fun hs ↦ ?_,
      hl₁.registered⟩
    · obtain rfl : t = u := Option.some.inj (ht.symm.trans (hhandle ▸ hu))
      exact ⟨hcore, hres⟩
    · exact ((hl₁.faithful hs).fits ha' ht').2.congr_core (hcore.trans hcore'.symm)

theorem ensures_settle (hs : l.store.Faithful) (h : Handle) :
    Ensures (settle h) l fun _ l' ↦ l.Settles l' := by
  unfold settle
  rw [Ensures, Stage.meets_bind]
  refine (ensures_typeOf h).imp ?_
  rintro t l₁ ⟨hl₁, ht⟩
  rw [Stage.meets_bind, Stage.meets_get]
  refine Stage.meets_ite.2 ⟨fun _ ↦ hl₁, fun hwait ↦ ?_⟩
  have hres : t.resolved = false := by
    simpa using (not_or.1 hwait).1
  show Stage.Meets (discard (compute t) >>= _) _ _ _
  rw [Stage.meets_bind]
  show Stage.Meets ((fun _ ↦ PUnit.unit) <$> compute t) _ _ _
  rw [Stage.meets_map]
  refine (ensures_compute (hl₁.faithful hs) ht hres).imp ?_
  rintro _ l₂ hl₂
  refine (hl₁.trans hl₂).trans ⟨.refl _, ?_⟩
  simp [registered, Function.comp_def]

/-! ## All of them -/

theorem ensures_settleAll (hs : l.store.Faithful) :
    Ensures settleAll l fun _ l' ↦ l.Settles l' := by
  unfold settleAll
  rw [Ensures, Stage.meets_bind, Stage.meets_get]
  refine (Stage.meets_foldlM (fun _ _ l' ↦ l.Settles l') (.refl l) ?_).imp fun _ _ h ↦ h
  rintro done h rest progress l₁ - hl₁
  rw [Stage.meets_bind]
  exact (ensures_settle (hl₁.faithful hs) h).imp fun _ _ hl₂ ↦ hl₁.trans hl₂

theorem ensures_settleRounds (hs : l.store.Faithful) (rounds : Nat) :
    Ensures (settleRounds rounds) l fun _ l' ↦ l.Settles l' := by
  induction rounds generalizing l with
  | zero => exact .refl l
  | succ rounds ih =>
    unfold settleRounds
    rw [Ensures, Stage.meets_bind]
    refine (ensures_settleAll hs).imp fun progress l₁ hl₁ ↦ ?_
    cases progress with
    | false => exact hl₁
    | true => exact (ih (hl₁.faithful hs)).imp fun _ _ hl₂ ↦ hl₁.trans hl₂

theorem ensures_chainFrom (fuel : Nat) (seen : List Handle) (steps : List Text) (t : ConcreteType) :
    Ensures (chainFrom fuel seen steps t) l fun _ l' ↦ l.Settles l' := by
  induction fuel generalizing seen steps t l with
  | zero => exact .refl l
  | succ fuel ih =>
    unfold chainFrom
    refine Stage.meets_ite.2 ⟨fun _ ↦ .refl l, fun _ ↦ ?_⟩
    rw [Stage.meets_bind, Stage.meets_get]
    dsimp only
    split
    · exact .refl l
    · rw [Stage.meets_bind]
      refine (ensures_typeOf _).imp ?_
      rintro next l₁ ⟨hl₁, -⟩
      exact (ih _ _ next).imp fun _ _ hl₂ ↦ hl₁.trans hl₂

theorem ensures_circular (t : ConcreteType) :
    Ensures (circular t) l fun _ l' ↦ l.Settles l' := by
  unfold circular chain
  simp only [Ensures, Stage.meets_bind, Stage.meets_get]
  refine (ensures_chainFrom _ [] [] t).imp ?_
  rintro ⟨steps, last⟩ l₁ hl₁
  exact hl₁

/-- After the passes an aggregate is left over or has its layout. -/
theorem ensures_resolve (hs : l.store.Faithful) :
    Ensures resolve l fun left l' ↦ l.Settles l' ∧
      ∀ h ∈ l.registered, h ∈ left.map Prod.fst ∨ l'.store.LaidOut h := by
  have leftOver (hs : List Handle) (l : Layouts) :
      Ensures (hs.filterMapM fun h ↦ do
        let t ← onStore (TypeStore.getType h)
        if t.resolved then return none
        return some (h, ← circular t)) l fun left l' ↦ l.Settles l' ∧
      ∀ h ∈ hs, h ∈ left.map Prod.fst ∨ l'.store.LaidOut h := by
    induction hs generalizing l with
    | nil => exact ⟨.refl l, nofun⟩
    | cons h hs ih =>
      rw [List.filterMapM_cons, Ensures, Stage.meets_bind, Stage.meets_bind]
      refine (ensures_typeOf h).imp ?_
      rintro t l₁ ⟨hl₁, ht⟩
      refine Stage.meets_ite.2 ⟨fun hres ↦ ?_, fun _ ↦ ?_⟩
      · refine (ih l₁).imp ?_
        rintro left l₂ ⟨hl₂, hrest⟩
        refine ⟨hl₁.trans hl₂, fun g hg ↦ ?_⟩
        obtain rfl | hg := List.mem_cons.1 hg
        · exact .inr (hl₂.store.laidOut ⟨t, ht, hres⟩)
        · exact hrest g hg
      · rw [Stage.meets_bind]
        refine (ensures_circular t).imp ?_
        intro d l₂ hl₂
        rw [Stage.meets_pure]
        dsimp only
        rw [Stage.meets_bind]
        refine (ih l₂).imp ?_
        rintro left l₃ ⟨hl₃, hrest⟩
        refine ⟨(hl₁.trans hl₂).trans hl₃, fun g hg ↦ ?_⟩
        obtain rfl | hg := List.mem_cons.1 hg
        · exact .inl (by simp)
        · exact (hrest g hg).imp_left fun hmem ↦ List.mem_cons_of_mem _ hmem
  unfold resolve
  simp only [Ensures, Stage.meets_bind, Stage.meets_get]
  refine (ensures_settleRounds hs _).imp fun _ l₁ hl₁ ↦ ?_
  refine (leftOver l₁.registered l₁).imp ?_
  rintro left l₂ ⟨hl₂, hleft⟩
  exact ⟨hl₁.trans hl₂, by rw [← hl₁.registered]; exact hleft⟩

end Layouts

end WasmBackend
