import WasmBackend.Proofs.Layout.LeftOver
import WasmBackend.Proofs.Types.Ground

/-!
# Layouts in use

Layouts are used by adding types and resolving, with calls of the store in between, on fresh layouts
over a store that others have used or not.  Adding builds types and registers aggregates, and lays
out nothing.  So a registered aggregate waits for the structs it contains, as long as none of them
is laid out; one that contains a struct with a layout waits for it forever.
-/

namespace WasmBackend

open Relation (ReflTransGen)
open Stage (Ensures Meets)

namespace TypeStore

variable {s s' : TypeStore}

/-- A call that returns only makes handles and builds types. -/
theorem ensures_call (hs : s.Standard) (c : Call) (hgiven : ∀ g ∈ c.given, g < s.size) :
    Ensures c.run s fun _ s' ↦ s.Gains s' := by
  have hadv : Ensures c.run s fun _ s' ↦ s.Advances s' := by
    cases c <;> refine Stage.meets_bind.2 (Stage.Meets.imp ?_ fun _ _ h ↦ h)
    · exact (ensures_specialize _ _).imp fun _ _ h ↦ h.1
    · exact (ensures_resolve _ _).imp fun _ _ h ↦ h.1
    · exact (builds_getType _ s).imp fun _ _ h ↦ h.1
  exact ((c.leaves_run hs hgiven).2.and hadv).imp fun _ _ h ↦ ⟨h.1, h.2.faithful⟩

theorem proper_ofProgram (p : Program) : (ofProgram p).Proper where
  toStandard := standard_ofProgram p
  faithful := by
    intro h a t ha
    simp [application?, ofProgram] at ha
  shaped := by
    intro h a t ha
    simp [application?, ofProgram] at ha

end TypeStore

namespace Layouts

variable {l₀ l l' l'' : Layouts} {h : Handle}

/-! ## Adding -/

/-- The same layouts with more aggregates registered.  A new one waits for all the structs it
contains; each of them is registered or laid out. -/
structure Registers (l l' : Layouts) : Prop where
  gains : l.store.Gains l'.store
  registered : ∃ more, l'.registered = l.registered ++ more
  waits : ∀ h ∈ l.registered, l'.waitsFor h = l.waitsFor h
  new : ∀ h ∈ l'.registered, h ∈ l.registered ∨ ∃ t, l'.store.type? h = some t ∧
    l'.waitsFor h = t.deps ∧ ¬l'.store.LaidOut h ∧
      ∀ d ∈ t.deps, d ∈ l'.registered ∨ l'.store.LaidOut d
  nodup : l.registered.Nodup → l'.registered.Nodup

theorem Registers.grows (hr : l.Registers l') : l.Grows l' where
  store := hr.gains.lays.toAdvances
  registered := by
    obtain ⟨more, hmore⟩ := hr.registered
    rw [hmore]
    exact List.subset_append_left ..

theorem registers_of_gains {store : TypeStore} (hg : l.store.Gains store) :
    l.Registers { l with store := store } where
  gains := hg
  registered := ⟨[], (List.append_nil _).symm⟩
  waits := fun _ _ ↦ rfl
  new := fun _ hh ↦ .inl hh
  nodup := id

theorem Registers.refl (l : Layouts) : l.Registers l :=
  registers_of_gains (.refl _)

/-- A struct that is contained is known as one. -/
theorem Known.registered_or_laidOut {d : Handle} (hk : l.Known d)
    (hstruct : l.store.kindOf d = .ok .struct) : d ∈ l.registered ∨ l.store.LaidOut d := by
  obtain ⟨k, hkind, hagg⟩ := hk
  cases hstruct.symm.trans hkind
  exact hagg rfl

theorem Registers.trans (h₁ : l.Registers l') (h₂ : l'.Registers l'') : l.Registers l'' where
  gains := h₁.gains.trans h₂.gains
  registered := by
    obtain ⟨more, hmore⟩ := h₁.registered
    obtain ⟨more', hmore'⟩ := h₂.registered
    exact ⟨more ++ more', by rw [hmore', hmore, List.append_assoc]⟩
  waits := fun h hh ↦ (h₂.waits h (h₁.grows.registered hh)).trans (h₁.waits h hh)
  new := by
    intro h hh
    obtain hold | hnew := h₂.new h hh
    · refine (h₁.new h hold).imp_right ?_
      rintro ⟨t, ht, hwaits, hopen, hdeps⟩
      have ht' := h₂.gains.type h t ht
      refine ⟨t, ht', (h₂.waits h hold).trans hwaits, fun hl ↦ hopen ⟨t, ht, hl.resolved ht'⟩, ?_⟩
      intro d hd
      exact (hdeps d hd).imp (fun hreg ↦ h₂.grows.registered hreg) h₂.gains.lays.laidOut
    · exact .inr hnew
  nodup := h₂.nodup ∘ h₁.nodup

/-- The layouts with one more aggregate, which waits for the structs it contains. -/
def push (l : Layouts) (store : TypeStore) (h : Handle) (deps : List Handle) : Layouts :=
  { l with store := store, pending := l.pending ++ [(h, deps)] }

theorem registered_push (store : TypeStore) (deps : List Handle) :
    (l.push store h deps).registered = l.registered ++ [h] :=
  List.map_append ..

theorem waitsFor_push {store : TypeStore} (hnew : h ∉ l.registered) (deps : List Handle)
    (g : Handle) :
    (l.push store h deps).waitsFor g = if g = h then deps else l.waitsFor g := by
  unfold waitsFor push
  rw [List.lookup_append]
  cases hg : l.pending.lookup g with
  | some ds =>
    have hne : g ≠ h := by
      rintro rfl
      exact hnew (mem_registered_of_lookup (by rw [hg]; rfl))
    rw [if_neg hne]
    rfl
  | none =>
    by_cases hgh : g = h
    · subst hgh
      simp
    · simp [List.lookup_cons, beq_false_of_ne hgh, hgh]

/-- A new aggregate is registered, and then all that it contains. -/
theorem Registers.of_push {store : TypeStore} {t : ConcreteType} (hs : l.store.Proper)
    (hgains : l.store.Gains store) (hnew : h ∉ l.registered) (ht : store.type? h = some t)
    (hres : ¬t.resolved) (hregisters : (l.push store h t.deps).Registers l')
    (hdeps : ∀ d ∈ t.deps, l'.Known d) : l.Registers l' := by
  have hall : l.store.Gains l'.store := hgains.trans hregisters.gains
  have hsplit := registered_push (l := l) (h := h) store t.deps
  have hmem : h ∈ (l.push store h t.deps).registered := by simp [hsplit]
  have hwaits (g : Handle) (hg : g ∈ (l.push store h t.deps).registered) :
      l'.waitsFor g = if g = h then t.deps else l.waitsFor g :=
    (hregisters.waits g hg).trans (waitsFor_push hnew t.deps g)
  have ht' : l'.store.type? h = some t := hregisters.gains.type h t ht
  constructor
  case gains => exact hall
  case registered =>
    obtain ⟨more, hmore⟩ := hregisters.registered
    exact ⟨h :: more, by rw [hmore, hsplit, List.append_assoc, List.singleton_append]⟩
  case waits =>
    intro g hg
    rw [hwaits g (hsplit ▸ List.mem_append_left _ hg), if_neg]
    rintro rfl
    exact hnew hg
  case new =>
    intro g hg
    obtain hold | hnew' := hregisters.new g hg
    · rw [hsplit] at hold
      refine (List.mem_append.1 hold).imp_right fun hgh ↦ ?_
      obtain rfl := List.mem_singleton.1 hgh
      refine ⟨t, ht', (hwaits g hmem).trans (if_pos rfl), fun hl ↦ hres (hl.resolved ht'), ?_⟩
      intro d hd
      obtain ⟨a, ha, hat⟩ := TypeStore.exists_of_type? ht'
        (TypeStore.ne_zero_of_type? ht (by rintro rfl; exact hres rfl))
      obtain ⟨m, -, rfl, hstruct⟩ := (((hall.lays.proper hs).shaped g a t ha hat).mem_deps d).1 hd
      exact (hdeps m.type hd).registered_or_laidOut hstruct
    · exact .inr hnew'
  case nodup =>
    intro hnodup
    refine hregisters.nodup ?_
    rw [hsplit]
    exact List.nodup_append_comm.1 (.cons hnew hnodup)

/-- Adding a type registers it and what it contains. -/
theorem ensures_addWithin_registers (hs : l.store.Proper) (depth : Nat) (h : Handle) :
    Ensures (addWithin depth h) l fun _ l' ↦ l.Registers l' ∧ l'.Known h := by
  induction depth generalizing h l with
  | zero => trivial
  | succ depth ih =>
    unfold addWithin
    rw [Ensures, Stage.meets_bind, Stage.meets_get, Stage.meets_bind, Stage.meets_ofExcept]
    cases hkind : l.store.kindOf h with
    | error e => trivial
    | ok k =>
      simp only
      by_cases hk : k.isAggregate
      swap
      · simp only [hk, Bool.not_false, if_true, Stage.meets_pure]
        exact ⟨.refl l, k, hkind, fun h ↦ absurd h hk⟩
      simp only [hk, Bool.not_true, Bool.false_eq_true, if_false, Stage.meets_bind, Stage.meets_get]
      by_cases hreg : (l.pending.lookup h).isSome
      · simp only [hreg, if_true, Stage.meets_pure]
        exact ⟨.refl l, k, hkind, fun _ ↦ .inl (mem_registered_of_lookup hreg)⟩
      have hnew : h ∉ l.registered := by
        intro hmem
        obtain ⟨x, hx, rfl⟩ := List.mem_map.1 hmem
        have hnone := List.lookup_eq_none_iff.1 (Option.not_isSome_iff_eq_none.1 hreg) x hx
        simp at hnone
      simp only [hreg, Bool.false_eq_true, if_false, Stage.meets_bind, meets_onStore]
      refine (TypeStore.meets_getType hs.toStandard (TypeStore.lt_size_of_kindOf hkind)).mono
        (fun _ _ ↦ trivial) ?_
      rintro t store ⟨hgains, ht⟩
      by_cases hres : t.resolved
      · simp only [hres, if_true, Stage.meets_pure]
        exact ⟨registers_of_gains hgains, k, hgains.kindOf hkind, fun _ ↦ .inr ⟨t, ht, hres⟩⟩
      simp only [hres, Bool.false_eq_true, if_false, Stage.meets_bind, Stage.meets_modify]
      have hproper : (l.push store h t.deps).store.Proper := hgains.lays.proper hs
      have hknown : (l.push store h t.deps).Known h :=
        ⟨k, hgains.kindOf hkind, fun _ ↦ .inl (by simp [registered_push])⟩
      -- what was added before stays known while the rest is added
      refine (Stage.meets_forIn (fun done _ l' ↦ (l.push store h t.deps).Registers l' ∧
        ∀ d ∈ done, l'.Known d) ⟨.refl _, by simp⟩ ?_).imp ?_
      · rintro done d rest _ l' - ⟨hregisters, hdone⟩
        rw [Stage.meets_bind]
        refine (ih (hregisters.gains.lays.proper hproper) d).imp ?_
        rintro _ l'' ⟨hregisters', hknown⟩
        refine ⟨_, rfl, hregisters.trans hregisters', fun g hg ↦ ?_⟩
        obtain hg | hg := List.mem_append.1 hg
        · exact hregisters'.grows.known (hdone g hg)
        · exact List.mem_singleton.1 hg ▸ hknown
      · rintro _ l' ⟨hregisters, hdeps⟩
        exact ⟨.of_push hs hgains hnew ht hres hregisters hdeps, hregisters.grows.known hknown⟩

theorem ensures_add_registers (hs : l.store.Proper) (h : Handle) :
    Ensures (add h) l fun _ l' ↦ l.Registers l' :=
  (ensures_addWithin_registers hs _ h).imp fun _ _ h ↦ h.1

/-! ## Histories -/

/-- A type is added, or the store is called, with a handle made before. -/
def Prepares (l l' : Layouts) : Prop :=
  (∃ h < l.store.size, add h l = (.ok (), l')) ∨
    ∃ c : TypeStore.Call, (∀ g ∈ c.given, g < l.store.size) ∧ onStore c.run l = (.ok (), l')

theorem Prepares.registers (hs : l.store.Proper) (hp : l.Prepares l') : l.Registers l' := by
  obtain ⟨h, -, hadd⟩ | ⟨c, hgiven, hcall⟩ := hp
  · exact (ensures_add_registers hs h).of_eq hadd
  · have hcalled : Ensures (onStore c.run) l fun _ l' ↦ l.Registers l' :=
      meets_onStore.2 ((TypeStore.ensures_call hs.toStandard c hgiven).imp fun _ _ ↦
        registers_of_gains)
    exact hcalled.of_eq hcall

theorem registers_of_prepares (hs : l.store.Proper) (hps : ReflTransGen Prepares l l') :
    l.Registers l' := by
  induction hps with
  | refl => exact .refl l
  | tail _ hp ih => exact ih.trans (hp.registers (ih.gains.lays.proper hs))

/-- Layouts over the store of a program after any use. -/
inductive Reached (p : Program) : Layouts → Prop where
  | start : Reached p { store := .ofProgram p }
  | renew {l : Layouts} (hl : Reached p l) : Reached p { store := l.store }
  | prepare {l l' : Layouts} (hl : Reached p l) (hp : l.Prepares l') : Reached p l'
  | resolve {l l' : Layouts} {left : List (Handle × Diagnostic)} (hl : Reached p l)
      (hr : resolve l = (.ok left, l')) : Reached p l'

theorem consistent_fresh {store : TypeStore} (hs : store.Proper) :
    Consistent { store := store } where
  proper := hs
  nodup := .nil
  contained := by simp [registered]
  known := by simp [registered]

theorem Registers.consistent (hr : l.Registers l') (hl : l.Consistent) : l'.Consistent where
  proper := hr.gains.lays.proper hl.proper
  nodup := hr.nodup hl.nodup
  contained := by
    intro h hh
    obtain hold | ⟨t, ht, hwaits, -, -⟩ := hr.new h hh
    · obtain ⟨t, ht, hsub, hdeps⟩ := hl.contained h hold
      rw [hr.waits h hold]
      exact ⟨t, hr.gains.type h t ht, hsub, fun d hd ↦ (hdeps d hd).imp_right hr.gains.lays.laidOut⟩
    · rw [hwaits]
      exact ⟨t, ht, fun _ ↦ id, fun _ ↦ .inl⟩
  known := by
    intro h hh d hd
    obtain hold | ⟨t, ht, hwaits, -, hdeps⟩ := hr.new h hh
    · rw [hr.waits h hold] at hd
      exact (hl.known h hold d hd).imp (fun hreg ↦ hr.grows.registered hreg) hr.gains.lays.laidOut
    · exact hdeps d (hwaits ▸ hd)

theorem Reached.consistent {p : Program} (hl : Reached p l) : l.Consistent := by
  induction hl with
  | start => exact consistent_fresh (TypeStore.proper_ofProgram p)
  | renew _ ih => exact consistent_fresh ih.proper
  | prepare _ hp ih => exact (hp.registers ih.proper).consistent ih
  | resolve _ hr ih =>
    exact ((meets_resolve ih).ensures.of_eq hr).1.consistent ih

/-- An aggregate that waits for a struct laid out before is left over. -/
theorem left_over_of_waits_laidOut (hl : l.Consistent) {d : Handle} (hreg : h ∈ l.registered)
    (hopen : ¬l.store.LaidOut h) (hwaits : d ∈ l.waitsFor h) (hlaid : l.store.LaidOut d) :
    Ensures resolve l fun left _ ↦ h ∈ left.map Prod.fst := by
  refine (meets_resolve hl).mono (fun _ _ ↦ trivial) ?_
  rintro left l' ⟨hp, hiff, hleft, -⟩
  rw [hleft, mem_unsettled, hp.registered]
  refine ⟨hreg, fun hl' ↦ ?_⟩
  obtain hl' | hs := (hiff h hreg).1 hl'
  · exact hopen hl'
  · obtain ⟨-, -, hneeds⟩ := hs
    obtain ⟨-, hdopen, -⟩ := hneeds d hwaits
    exact hdopen hlaid

/-- Adding an aggregate when a struct it contains is laid out already leaves it over. -/
theorem left_over_of_contains_laidOut (hl : l.Consistent) (hr : l.Registers l')
    (hold : h ∉ l.registered) (hreg : h ∈ l'.registered) {t : ConcreteType}
    (ht : l'.store.type? h = some t) {d : Handle} (hd : d ∈ t.deps) (hlaid : l'.store.LaidOut d) :
    Ensures resolve l' fun left _ ↦ h ∈ left.map Prod.fst := by
  obtain ⟨u, hu, hwaits, hopen, -⟩ := (hr.new h hreg).resolve_left hold
  cases ht.symm.trans hu
  exact left_over_of_waits_laidOut (hr.consistent hl) hreg hopen (hwaits ▸ hd) hlaid

end Layouts

end WasmBackend
