import WasmBackend.Proofs.Layout.Settling

/-!
# Aggregates left over

After the passes the aggregates without a layout are those that had none and could not be settled.
Each is left over with one finding about a circular layout, in the order of registration.  The chain
that a finding names visits no type twice, so it comes to an end by itself as well.
-/

namespace WasmBackend.Layouts

open Stage (Ensures Meets Succeeds)

variable {l₀ l : Layouts} {h : Handle}

theorem Proceeds.consistent (hp : l₀.Proceeds l) (hl₀ : l₀.Consistent) : l.Consistent where
  proper := hp.lays.proper hl₀.proper
  nodup := hp.registered ▸ hl₀.nodup
  contained := by
    intro h hh
    rw [hp.registered] at hh
    obtain ⟨t, ht, hsub, hdeps⟩ := hl₀.contained h hh
    obtain ⟨t', ht', hcore, -⟩ := hp.lays.type h t ht
    have hsame : t'.deps = t.deps := congrArg (fun c ↦ c.deps) hcore
    rw [← hsame] at hsub hdeps
    refine ⟨t', ht', fun d hd ↦ hsub d ((hp.waits h hh d).1 hd).1, fun d hd ↦ ?_⟩
    refine (hdeps d hd).elim (fun hw ↦ ?_) fun hl ↦ .inr (hp.lays.laidOut hl)
    by_cases hlaid : l.store.LaidOut d
    · exact .inr hlaid
    · exact .inl ((hp.waits h hh d).2 ⟨hw, fun h ↦ hlaid h.1⟩)
  known := by
    intro h hh d hd
    rw [hp.registered] at hh ⊢
    exact (hl₀.known h hh d ((hp.waits h hh d).1 hd).1).imp_right hp.lays.laidOut

theorem Consistent.isBuilt_of_waits (hl : l.Consistent) (h : Handle) :
    ∀ d ∈ l.waitsFor h, ∃ t, l.store.type? d = some t := by
  intro d hd
  by_cases hreg : h ∈ l.registered
  · exact hl.isBuilt (hl.known h hreg d hd)
  · simp [waitsFor_eq_nil hreg] at hd

/-! ## Chains -/

/-- Following a chain changes nothing when all that is waited for is built. -/
theorem meets_chainFrom (hbuilt : ∀ h, ∀ d ∈ l.waitsFor h, ∃ t, l.store.type? d = some t)
    (fuel : Nat) (seen : List Handle) (steps : List Text) (t : ConcreteType)
    {err : Failure → Prop} :
    Meets (chainFrom fuel seen steps t) l err fun _ l' ↦ l' = l := by
  induction fuel generalizing seen steps t with
  | zero => rfl
  | succ fuel ih =>
    unfold chainFrom
    refine Stage.meets_ite.2 ⟨fun _ ↦ rfl, fun _ ↦ ?_⟩
    rw [Stage.meets_bind, Stage.meets_get]
    dsimp only
    split
    · rfl
    · rename_i m hm
      obtain ⟨next, hnext⟩ := hbuilt _ m.type (by simpa using List.find?_some hm)
      rw [Stage.meets_bind, meets_typeOf_of_type? hnext]
      exact ih _ _ next

theorem length_le_size {seen : List Handle} (hnodup : seen.Nodup)
    (hseen : ∀ g ∈ seen, g < l.store.size) : seen.length ≤ l.store.size := by
  have hsub : seen ⊆ List.range l.store.size := fun g hg ↦ List.mem_range.2 (hseen g hg)
  simpa using (List.subperm_of_subset hnodup hsub).length_le

/-- A chain visits no type twice, so it takes no more steps than there are handles. -/
theorem chainFrom_eq (hfaithful : l.store.Faithful)
    (hbuilt : ∀ h, ∀ d ∈ l.waitsFor h, ∃ t, l.store.type? d = some t) {seen : List Handle}
    (hnodup : seen.Nodup) (hseen : ∀ g ∈ seen, g < l.store.size) (steps : List Text)
    {t : ConcreteType} (ht : t.handle < l.store.size) {fuel fuel' : Nat}
    (hfuel : l.store.size < fuel + seen.length) (hfuel' : l.store.size < fuel' + seen.length) :
    chainFrom fuel seen steps t l = chainFrom fuel' seen steps t l := by
  have hlength := length_le_size hnodup hseen
  induction fuel generalizing seen steps t fuel' with
  | zero => omega
  | succ fuel ih =>
    obtain ⟨fuel', rfl⟩ : ∃ n, fuel' = n + 1 := Nat.exists_eq_succ_of_ne_zero (by omega)
    unfold chainFrom
    split
    · rfl
    · rename_i hnew
      rw [Stage.bind_apply, Stage.bind_apply, Stage.get_apply]
      dsimp only
      cases hm : t.members.find? fun m ↦ m.type ∈ l.waitsFor t.handle with
      | none => rfl
      | some m =>
        obtain ⟨next, hnext⟩ := hbuilt _ m.type (by simpa using List.find?_some hm)
        dsimp only
        rw [Stage.bind_apply, Stage.bind_apply, typeOf_of_type? hnext]
        have hsize : next.handle < l.store.size := by
          rw [hfaithful.handle hnext]
          exact TypeStore.lt_size_of_type? hnext
        have hseen' : ∀ g ∈ t.handle :: seen, g < l.store.size := by
          rintro g (_ | ⟨_, hg⟩)
          · exact ht
          · exact hseen g hg
        have hlength' : (t.handle :: seen).length ≤ l.store.size :=
          length_le_size (.cons (by simpa using hnew) hnodup) hseen'
        exact ih (.cons (by simpa using hnew) hnodup) hseen' _ hsize
          (by rw [List.length_cons]; omega) (by rw [List.length_cons]; omega) hlength'

/-- The finding about a circular layout. -/
theorem meets_circular (hbuilt : ∀ h, ∀ d ∈ l.waitsFor h, ∃ t, l.store.type? d = some t)
    (t : ConcreteType) {err : Failure → Prop} :
    Meets (circular t) l err fun d l' ↦ l' = l ∧ d.code = .circularLayout := by
  unfold circular chain
  simp only [Stage.meets_bind, Stage.meets_get]
  refine (meets_chainFrom hbuilt _ [] [] t).imp ?_
  rintro ⟨steps, last⟩ l₁ rfl
  exact ⟨rfl, rfl⟩

/-! ## Resolving -/

theorem meets_leftOver (hbuilt : ∀ h, ∀ d ∈ l.waitsFor h, ∃ t, l.store.type? d = some t)
    {hs : List Handle} (hhs : ∀ h ∈ hs, ∃ t, l.store.type? h = some t) {err : Failure → Prop} :
    Meets (hs.filterMapM fun h ↦ do
        let t ← onStore (TypeStore.getType h)
        if t.resolved then return none
        return some (h, ← circular t)) l err fun left l' ↦ l' = l ∧
      left.map Prod.fst = hs.filter (fun h ↦ !(l.store.type? h).any ConcreteType.resolved) ∧
        ∀ x ∈ left, ∃ t, l.store.type? x.1 = some t ∧ circular t l = (.ok x.2, l) := by
  induction hs with
  | nil => exact ⟨rfl, rfl, nofun⟩
  | cons h hs ih =>
    have hrest := ih fun g hg ↦ hhs g (List.mem_cons_of_mem h hg)
    obtain ⟨t, ht⟩ := hhs h List.mem_cons_self
    rw [List.filterMapM_cons, Stage.meets_bind, Stage.meets_bind, meets_typeOf_of_type? ht]
    refine Stage.meets_ite.2 ⟨fun hres ↦ ?_, fun hres ↦ ?_⟩
    · refine hrest.imp ?_
      rintro left l' ⟨rfl, hleft, hfound⟩
      exact ⟨rfl, by simpa [ht, hres] using hleft, hfound⟩
    · obtain ⟨d, l₁, hd, rfl, -⟩ := Stage.succeeds_iff.1 (meets_circular hbuilt t)
      rw [Stage.meets_bind, Meets, hd]
      show Meets (pure (some (h, d))) _ _ _
      rw [Stage.meets_pure]
      dsimp only
      rw [Stage.meets_bind]
      refine hrest.imp ?_
      rintro left l' ⟨rfl, hleft, hfound⟩
      refine ⟨rfl, by simpa [ht, hres] using hleft, ?_⟩
      rintro x (_ | ⟨_, hx⟩)
      · exact ⟨t, ht, hd⟩
      · exact hfound x hx

/-- Resolving fails only where a type cannot be built or a size is out of range.  What has no layout
when the passes are over waits for something, and is left over with a finding. -/
theorem meets_resolve_findings (hl₀ : l₀.Consistent) :
    Meets resolve l₀ (fun _ ↦ ¬l₀.Feasible) fun left l ↦ l₀.Proceeds l ∧
      (∀ h ∈ l₀.registered, l.store.LaidOut h ∨ l.waitsFor h ≠ []) ∧
      left.map Prod.fst = l.unsettled ∧
      ∀ x ∈ left, ∃ t, l.store.type? x.1 = some t ∧ circular t l = (.ok x.2, l) := by
  have hrounds : l₀.unsettled.length < l₀.pending.length + 1 := by
    refine Nat.lt_succ_of_le ((List.length_filter_le _ _).trans (le_of_eq ?_))
    exact List.length_map ..
  unfold resolve
  simp only [Stage.meets_bind, Stage.meets_get]
  refine (meets_settleRounds hl₀ (.refl l₀) hrounds).imp ?_
  rintro _ l₁ ⟨hp, hwaits⟩
  have hl₁ := hp.consistent hl₀
  refine (meets_leftOver hl₁.isBuilt_of_waits fun h hreg ↦ hl₁.isBuilt (.inl hreg)).imp ?_
  rintro left l ⟨rfl, hleft, hfound⟩
  exact ⟨hp, hwaits, hleft, hfound⟩

/-- Resolving lays out what can be settled, and what has no layout then is left over with a finding
about a circular layout. -/
theorem meets_resolve (hl₀ : l₀.Consistent) :
    Meets resolve l₀ (fun _ ↦ ¬l₀.Feasible) fun left l ↦ l₀.Proceeds l ∧
      (∀ h ∈ l₀.registered, l.store.LaidOut h ↔ l₀.store.LaidOut h ∨ l₀.Settleable h) ∧
      left.map Prod.fst = l.unsettled ∧ ∀ x ∈ left, x.2.code = .circularLayout := by
  refine (meets_resolve_findings hl₀).imp ?_
  rintro left l ⟨hp, hwaits, hleft, hfound⟩
  refine ⟨hp, fun h hreg ↦ hp.laidOut_iff hwaits hreg, hleft, fun x hx ↦ ?_⟩
  obtain ⟨t, -, hcircular⟩ := hfound x hx
  have hcode : Ensures (circular t) l fun d l' ↦ l' = l ∧ d.code = .circularLayout :=
    meets_circular (hp.consistent hl₀).isBuilt_of_waits t
  exact (hcode.of_eq hcircular).2

end WasmBackend.Layouts
