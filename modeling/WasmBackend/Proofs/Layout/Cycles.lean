import WasmBackend.Proofs.Layout.Histories

/-!
# Resolving finds the value cycles

When no struct that a registered aggregate contains was laid out before, the aggregates left over
are those from which a cycle of struct-typed members can be reached, and all others get packed
layouts.
-/

namespace WasmBackend

open Relation (ReflTransGen TransGen)
open Stage (Meets Succeeds)

namespace TypeStore

/-- The first type has a member whose value is a struct of the second. -/
def Contains (s : TypeStore) (h g : Handle) : Prop :=
  ∃ t, s.type? h = some t ∧ ∃ m ∈ t.members, m.type = g ∧ s.kindOf g = .ok .struct

/-- Following struct-typed members can lead from the type to one that contains itself. -/
def ReachesCycle (s : TypeStore) (h : Handle) : Prop :=
  ∃ g, ReflTransGen s.Contains h g ∧ TransGen s.Contains g g

variable {s : TypeStore} {h : Handle}

/-- A type that contains no struct reaches no cycle. -/
theorem not_reachesCycle (hnone : ∀ g, ¬s.Contains h g) : ¬s.ReachesCycle h := by
  rintro ⟨g, hpath, hcycle⟩
  obtain rfl | ⟨g', hstep, -⟩ := ReflTransGen.cases_head hpath
  · obtain ⟨g', hstep, -⟩ := TransGen.head'_iff.1 hcycle
    exact hnone g' hstep
  · exact hnone g' hstep

/-- The size of a value that is no struct and whose type is not built yet. -/
theorem ValueSize.eq_flatSize {n : Nat} (hn : s.ValueSize h n) {a : Application}
    (ha : s.application? h = some a) (hopen : s.type? h = none) : n = a.flatSize := by
  cases hn with
  | void => cases hopen
  | flat hb => rw [Option.some.inj (ha.symm.trans hb)]
  | laidOut ht => cases hopen.symm.trans ht
  | struct ht => cases hopen.symm.trans ht

theorem Proper.contains_iff (hs : s.Proper) {g : Handle} {t : ConcreteType}
    (ht : s.type? h = some t) : s.Contains h g ↔ g ∈ t.deps := by
  have hiff : g ∈ t.deps ↔ ∃ m ∈ t.members, m.type = g ∧ s.kindOf g = .ok .struct := by
    obtain rfl | hh := eq_or_ne h 0
    · cases ht
      simp [ConcreteType.void]
    · obtain ⟨a, ha, hat⟩ := exists_of_type? ht hh
      exact (hs.shaped h a t ha hat).mem_deps g
  rw [hiff]
  constructor
  · rintro ⟨u, hu, hmember⟩
    cases ht.symm.trans hu
    exact hmember
  · exact fun hmember ↦ ⟨t, ht, hmember⟩

end TypeStore

namespace Layouts

variable {l₀ l : Layouts} {h : Handle}

/-! ## What can be settled reaches no cycle -/

/-- What the registered aggregates contain is what they wait for, and is registered too. -/
structure Complete (l : Layouts) : Prop extends l.Consistent where
  waits_iff : ∀ h ∈ l.registered, ∀ g, g ∈ l.waitsFor h ↔ l.store.Contains h g
  opened : ∀ h ∈ l.registered, ¬l.store.LaidOut h
  closed : ∀ h ∈ l.registered, ∀ g, l.store.Contains h g → g ∈ l.registered

/-- Layouts prepared from fresh ones, with no struct that is contained laid out before. -/
theorem complete_of_registers {store : TypeStore} (hs : store.Proper)
    (hr : Registers { store := store } l)
    (hopen : ∀ h ∈ l.registered, ∀ g, l.store.Contains h g → ¬l.store.LaidOut g) : l.Complete := by
  have hl := hr.consistent (consistent_fresh hs)
  have hnew (h : Handle) (hh : h ∈ l.registered) :=
    (hr.new h hh).resolve_left (by simp [registered])
  refine ⟨hl, fun h hh g ↦ ?_, fun h hh ↦ ?_, fun h hh g hg ↦ ?_⟩
  · obtain ⟨t, ht, hwaits, -, -⟩ := hnew h hh
    rw [hwaits, hl.proper.contains_iff ht]
  · obtain ⟨-, -, -, hopen, -⟩ := hnew h hh
    exact hopen
  · obtain ⟨t, ht, -, -, hdeps⟩ := hnew h hh
    exact (hdeps g ((hl.proper.contains_iff ht).1 hg)).resolve_right (hopen h hh g hg)

theorem Settleable.not_transGen (hl : l.Complete) (hs : l.Settleable h) :
    ¬TransGen l.store.Contains h h := by
  induction hs with
  | @intro h hreg hopen hneeds ih =>
    intro hcycle
    obtain ⟨g, hg, hback⟩ := TransGen.head'_iff.1 hcycle
    exact ih g ((hl.waits_iff h hreg g).2 hg) (.tail' hback hg)

theorem Settleable.of_reflTransGen (hl : l.Complete) {g : Handle} (hs : l.Settleable h)
    (hpath : ReflTransGen l.store.Contains h g) : l.Settleable g := by
  induction hpath with
  | refl => exact hs
  | tail _ hstep ih =>
    obtain ⟨hreg, -, hneeds⟩ := ih
    exact hneeds _ ((hl.waits_iff _ hreg _).2 hstep)

/-- An aggregate that cannot be settled contains another one. -/
theorem Complete.exists_contains (hl : l.Complete) (hreg : h ∈ l.registered)
    (hnot : ¬l.Settleable h) :
    ∃ g, l.store.Contains h g ∧ g ∈ l.registered ∧ ¬l.Settleable g := by
  by_contra hnone
  refine hnot (.intro hreg (hl.opened h hreg) fun g hg ↦ by_contra fun hg' ↦ hnone ?_)
  have hcontains := (hl.waits_iff h hreg g).1 hg
  exact ⟨g, hcontains, hl.closed h hreg g hcontains, hg'⟩

/-- Among finitely many aggregates, those that cannot be settled lead to a cycle. -/
theorem Complete.settleable_iff (hl : l.Complete) (hreg : h ∈ l.registered) :
    l.Settleable h ↔ ¬l.store.ReachesCycle h := by
  constructor
  · rintro hs ⟨g, hpath, hcycle⟩
    exact (hs.of_reflTransGen hl hpath).not_transGen hl hcycle
  · intro hnone
    by_contra hnot
    -- a walk that goes on through such aggregates comes back to one of them
    let Bad := { g // g ∈ l.registered ∧ ¬l.Settleable g }
    have hstep (g : Bad) : ∃ g' : Bad, l.store.Contains g g' := by
      obtain ⟨g', hcontains, hbad⟩ := hl.exists_contains g.2.1 g.2.2
      exact ⟨⟨g', hbad⟩, hcontains⟩
    choose next hnext using hstep
    let walk (n : Nat) : Bad := next^[n] ⟨h, hreg, hnot⟩
    have hwalk (n : Nat) : l.store.Contains (walk n) (walk (n + 1)) := by
      simp only [walk, Function.iterate_succ_apply']
      exact hnext _
    have hfinite : Finite Bad :=
      Set.Finite.to_subtype (l.registered.finite_toSet.subset fun g (hg : _ ∧ _) ↦ hg.1)
    have hpath (i : Nat) : ReflTransGen l.store.Contains h (walk i) := by
      induction i with
      | zero => exact .refl
      | succ i ih => exact ih.tail (hwalk i)
    have hcycle {i j : Nat} (hlt : i < j) (hsame : walk i = walk j) : l.store.ReachesCycle h := by
      refine ⟨walk i, hpath i, ?_⟩
      have := Nat.rel_of_forall_rel_succ_of_lt (TransGen l.store.Contains)
        (f := fun n ↦ (walk n).1) (fun n ↦ .single (hwalk n)) hlt
      rwa [← hsame] at this
    obtain ⟨i, j, hne, hsame⟩ := Finite.exists_ne_map_eq_of_infinite walk
    obtain hlt | hlt := Nat.lt_or_gt_of_ne hne
    · exact hnone (hcycle hlt hsame)
    · exact hnone (hcycle hlt hsame.symm)

/-! ## Resolving -/

open Classical in
/-- Resolving returns, by itself, the registered aggregates from which a cycle of struct-typed
members can be reached, in the order of registration, each with one finding about a circular layout;
they get no layout.  Every other one has its fields packed in the order of their declaration. -/
theorem resolve_leaves_cycles {p : Program} (hl₀ : Reached p l₀)
    (hprepared : ReflTransGen Prepares { store := l₀.store } l)
    (hopen : ∀ h ∈ l.registered, ∀ g, l.store.Contains h g → ¬l.store.LaidOut g)
    (hbuild : ∀ h ∈ l.registered, ¬l.store.ReachesCycle h → ∀ t, l.store.type? h = some t →
      ∀ m ∈ t.members, l.store.Buildable m.type)
    (hsizes : ∀ h ∈ l.registered, ¬l.store.ReachesCycle h → ∀ t, l.store.type? h = some t →
      ∀ sizes, List.Forall₂ l.store.ValueSize (t.members.map Member.type) sizes →
        sizes.sum < 0x100000000) :
    (Succeeds resolve l fun left l' ↦
      left.map Prod.fst = l.registered.filter (fun h ↦ l.store.ReachesCycle h) ∧
      (left.map Prod.fst).Nodup ∧
      (∀ x ∈ left, x.2.code = .circularLayout ∧ ¬l'.store.LaidOut x.1) ∧
      (∀ h ∈ l.registered, ¬l.store.ReachesCycle h → ∃ a t sizes,
        l'.store.application? h = some a ∧ l'.store.type? h = some t ∧ t.resolved ∧
          t.Fits l'.store a ∧ l'.store.Packs t.members sizes ∧ t.size = sizes.sum) ∧
      ∀ h ∈ l.registered, ∀ t, l'.store.type? h = some t → ∀ steps, l'.store.size < steps →
        chainFrom steps [] [] t l' = chainFrom (l'.store.size + 1) [] [] t l') ∧
    ∀ rounds, l.pending.length < rounds →
      settleRounds rounds l = settleRounds (l.pending.length + 1) l := by
  have hproper := hl₀.consistent.proper
  have hregisters := registers_of_prepares (l := { store := l₀.store }) hproper hprepared
  have hl := complete_of_registers hproper hregisters hopen
  have hfeasible : l.Feasible := by
    intro h t hs ht
    obtain ⟨hreg, -, -⟩ := id hs
    have hnone := (hl.settleable_iff hreg).1 hs
    exact ⟨hbuild h hreg hnone t ht, hsizes h hreg hnone t ht⟩
  constructor
  · refine (meets_resolve hl.toConsistent).mono (fun _ hnot ↦ hnot hfeasible) ?_
    rintro left l' ⟨hp, hiff, hleft, hcode⟩
    have hl' := hp.consistent hl.toConsistent
    have hlaid (h : Handle) (hreg : h ∈ l.registered) :
        l'.store.LaidOut h ↔ ¬l.store.ReachesCycle h := by
      rw [hiff h hreg, hl.settleable_iff hreg]
      exact or_iff_right (hl.opened h hreg)
    refine ⟨?_, ?_, fun x hx ↦ ⟨hcode x hx, ?_⟩, fun h hreg hnone ↦ ?_, ?_⟩
    · rw [hleft, unsettled, hp.registered]
      refine List.filter_congr fun h hreg ↦ ?_
      have hnone := (hlaid h hreg).symm.trans TypeStore.laidOut_iff
      by_cases hcycle : l.store.ReachesCycle h
      · have hopen' := hnone.not.1 (not_not.2 hcycle)
        simpa [hcycle] using hopen'
      · simp [hcycle, hnone.1 hcycle]
    · rw [hleft]
      exact hl'.nodup.filter _
    · have hmem : x.1 ∈ l'.unsettled := hleft ▸ List.mem_map_of_mem hx
      exact (mem_unsettled.1 hmem).2
    · obtain hold | ⟨-, t, sizes, ht, hpacks, hsize, -⟩ :=
        hp.settled h hreg ((hlaid h hreg).2 hnone)
      · exact absurd hold (hl.opened h hreg)
      · have hres := ((hlaid h hreg).2 hnone).resolved ht
        have hh : h ≠ 0 := by
          rintro rfl
          exact hl.opened 0 hreg ⟨.void, rfl, rfl⟩
        obtain ⟨a, ha, -⟩ := TypeStore.exists_of_type? ht hh
        exact ⟨a, t, sizes, ha, ht, hres, (hl'.proper.faithful.fits ha ht).2, hpacks, hsize⟩
    · intro h hreg t ht steps hsteps
      refine chainFrom_eq hl'.proper.faithful hl'.isBuilt_of_waits .nil (by simp) [] ?_
        (by simpa using hsteps) (by simp)
      rw [hl'.proper.faithful.handle ht]
      exact TypeStore.lt_size_of_type? ht
  · intro rounds hrounds
    have hlength : l.unsettled.length ≤ l.pending.length :=
      (List.length_filter_le _ _).trans (le_of_eq (List.length_map ..))
    exact settleRounds_eq hl.toConsistent (.refl l) (hlength.trans_lt hrounds)
      (Nat.lt_succ_of_le hlength)

/-- Making the first handle and adding its type. -/
theorem prepares_first {p : Program} (identity : Text) (l₁ : Layouts)
    (hcall : (onStore (TypeStore.Call.specialize identity []).run).runFrom
      { store := .ofProgram p } = (.ok (), l₁))
    (hsize : 1 < l₁.store.size) (hadd : (add 1).runFrom l₁ = (.ok (), l)) :
    ReflTransGen Prepares { store := .ofProgram p } l := by
  have hfirst : Prepares { store := .ofProgram p } l₁ :=
    .inr ⟨.specialize identity [], by simp [TypeStore.Call.given], hcall⟩
  exact (ReflTransGen.single hfirst).tail (.inl ⟨1, hsize, hadd⟩)

/-- A struct of two numbers, and one that contains it and itself. -/
def selfContained : Program where
  types := #[{ kind := .prim, prim := .i32 }, { kind := .prim, prim := .i64 },
    { kind := .named, decl := 1 }, { kind := .named, decl := 2 }]
  decls := #[
    { kind := .struct, name := "P", aggregate := some {
      fields := [{ name := "x", type := 1 }, { name := "y", type := 2 }] } },
    { kind := .struct, name := "L", aggregate := some {
      fields := [{ name := "p", type := 3 }, { name := "l", type := 4 }] } }]

/-- The struct that contains itself is added, and the other one with it. -/
def addedSelf : Layouts where
  store := { TypeStore.ofProgram selfContained with
    applications := #[
      { template := .aggregate 2, args := [], type := some {
          handle := 1, name := "L", kind := .struct, decl := 2
          members := [{ name := "p", type := 2 }, { name := "l", type := 1 }], deps := [2, 1] } },
      { template := .aggregate 1, args := [], type := some {
          handle := 2, name := "P", kind := .struct, decl := 1
          members := [{ name := "x", type := 3 }, { name := "y", type := 4 }] } },
      { template := .prim .i32, args := [] }, { template := .prim .i64, args := [] }] }
  pending := [(1, [2, 1]), (2, [])]

/-- Of the two, the struct that contains itself is left over. -/
theorem resolve_addedSelf :
    ReflTransGen Prepares { store := .ofProgram selfContained } addedSelf ∧
      addedSelf.registered = [1, 2] ∧
      Succeeds resolve addedSelf fun left _ ↦ left.map Prod.fst = [1] := by
  have hprepared : ReflTransGen Prepares { store := .ofProgram selfContained } addedSelf :=
    prepares_first "decl#2" { store := { TypeStore.ofProgram selfContained with
      applications := #[{ template := .aggregate 2, args := [] }] } }
      (by decide +kernel) (by decide) (by decide +kernel)
  have hcycle : addedSelf.store.ReachesCycle 1 :=
    ⟨1, .refl, .single ⟨_, rfl, _, .tail _ (.head _), rfl, rfl⟩⟩
  have hnone (g : Handle) : ¬addedSelf.store.Contains 2 g := by
    rintro ⟨t, ht, m, hm, rfl, hstruct⟩
    cases ht
    obtain rfl | rfl : m = { name := "x", type := 3 } ∨ m = { name := "y", type := 4 } := by
      simpa using hm
    · cases hstruct
    · cases hstruct
  have hacyclic := TypeStore.not_reachesCycle hnone
  have hpair (h : Handle) (hreg : h ∈ [1, 2]) : h = 1 ∨ h = 2 := by
    simpa using hreg
  have hopen : ∀ h ∈ addedSelf.registered, ∀ g, addedSelf.store.Contains h g →
      ¬addedSelf.store.LaidOut g := by
    rintro h hreg g ⟨t, ht, m, hm, rfl, hstruct⟩ ⟨u, hu, hres⟩
    obtain rfl | rfl := hpair h hreg
    · cases ht
      obtain rfl | rfl : m = { name := "p", type := 2 } ∨ m = { name := "l", type := 1 } := by
        simpa using hm
      · cases hu
        cases hres
      · cases hu
        cases hres
    · exact hnone m.type ⟨t, ht, m, hm, rfl, hstruct⟩
  have hbuild : ∀ h ∈ addedSelf.registered, ¬addedSelf.store.ReachesCycle h → ∀ t,
      addedSelf.store.type? h = some t → ∀ m ∈ t.members, addedSelf.store.Buildable m.type := by
    intro h hreg hacyclic' t ht m hm
    obtain rfl | rfl := hpair h hreg
    · exact absurd hcycle hacyclic'
    cases ht
    obtain rfl | rfl : m = { name := "x", type := 3 } ∨ m = { name := "y", type := 4 } := by
      simpa using hm
    · exact .apply rfl rfl trivial fun g hg ↦ by cases hg
    · exact .apply rfl rfl trivial fun g hg ↦ by cases hg
  have hsizes : ∀ h ∈ addedSelf.registered, ¬addedSelf.store.ReachesCycle h → ∀ t,
      addedSelf.store.type? h = some t → ∀ sizes,
        List.Forall₂ addedSelf.store.ValueSize (t.members.map Member.type) sizes →
          sizes.sum < 0x100000000 := by
    intro h hreg hacyclic' t ht sizes hsizes
    obtain rfl | rfl := hpair h hreg
    · exact absurd hcycle hacyclic'
    cases ht
    obtain ⟨n, _, hn, hrest, rfl⟩ := List.forall₂_cons_left_iff.1 hsizes
    obtain ⟨n', _, hn', hrest', rfl⟩ := List.forall₂_cons_left_iff.1 hrest
    cases hrest'
    rw [hn.eq_flatSize rfl rfl, hn'.eq_flatSize rfl rfl]
    decide
  have hregistered : addedSelf.registered = [1, 2] := rfl
  -- Nothing is left to evaluate: with the layouts in view Lean would resolve them to see what the
  -- goal says.
  generalize addedSelf = l at *
  refine ⟨hprepared, hregistered,
    (resolve_leaves_cycles .start hprepared hopen hbuild hsizes).1.imp ?_⟩
  rintro left l' ⟨hleft, -⟩
  rw [hleft, hregistered]
  simp [hcycle, hacyclic]

/-- A struct that holds a reference to a class with a field of a type that is missing. -/
def missingType : Program where
  types := #[{ kind := .named, decl := 1 }]
  decls := #[
    { kind := .cls, name := "C", aggregate := some { fields := [{ name := "x", type := 7 }] } },
    { kind := .struct, name := "S", aggregate := some { fields := [{ name := "c", type := 1 }] } }]

/-- The struct is added; its class is not built yet. -/
def addedMissing : Layouts where
  store := { TypeStore.ofProgram missingType with
    applications := #[
      { template := .aggregate 2, args := [], type := some {
          handle := 1, name := "S", kind := .struct, decl := 2
          members := [{ name := "c", type := 2 }] } },
      { template := .aggregate 1, args := [] }] }
  pending := [(1, [])]

/-- Resolving fails, cycles or not, when the type of a member cannot be built. -/
theorem resolve_fails_of_missing_type :
    ReflTransGen Prepares { store := .ofProgram missingType } addedMissing ∧
      addedMissing.registered = [1] ∧ ¬addedMissing.store.LaidOut 1 ∧
      (∀ g, ¬addedMissing.store.Contains 1 g) ∧ ¬addedMissing.store.ReachesCycle 1 ∧
      (∀ t, addedMissing.store.type? 1 = some t → ∀ sizes,
        List.Forall₂ addedMissing.store.ValueSize (t.members.map Member.type) sizes →
          sizes.sum < 0x100000000) ∧
      ¬Succeeds resolve addedMissing fun _ _ ↦ True := by
  have hprepared : ReflTransGen Prepares { store := .ofProgram missingType } addedMissing :=
    prepares_first "decl#2" { store := { TypeStore.ofProgram missingType with
      applications := #[{ template := .aggregate 2, args := [] }] } }
      (by decide +kernel) (by decide) (by decide +kernel)
  have hfail : (resolve.runFrom addedMissing).1 =
      .error (.internal "resolve: type expression 7 is missing") := by decide +kernel
  have hnone (g : Handle) : ¬addedMissing.store.Contains 1 g := by
    rintro ⟨t, ht, m, hm, rfl, hstruct⟩
    cases ht
    obtain rfl := List.mem_singleton.1 hm
    cases hstruct
  have hregistered : addedMissing.registered = [1] := rfl
  refine ⟨hprepared, hregistered, ?_, hnone, TypeStore.not_reachesCycle hnone, ?_, ?_⟩
  · rintro ⟨t, ht, hres⟩
    cases ht
    cases hres
  · intro t ht sizes hsizes
    cases ht
    obtain ⟨n, _, hn, hrest, rfl⟩ := List.forall₂_cons_left_iff.1 hsizes
    cases hrest
    rw [hn.eq_flatSize rfl rfl]
    decide
  · rcases hresolve : resolve addedMissing with ⟨_ | left, l'⟩
    · unfold Succeeds Meets
      rw [hresolve]
      exact id
    · have hok : (resolve.runFrom addedMissing).1 = .ok left := congrArg Prod.fst hresolve
      cases hok.symm.trans hfail

end Layouts

end WasmBackend
