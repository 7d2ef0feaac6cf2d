import WasmBackend.Proofs.Wasm.Emitted
import WasmBackend.Proofs.Wasm.Validation

/-!
# Emitted modules are valid

A module is well typed when every function has a type of the module and a body that obeys the rules
for that type.  What is emitted for a unit is well typed when the functions of the unit are typed,
their names differ, and no two types that the unit uses have the same key.  The last condition is
needed: a wide float among the parameters can make the key of one type that of another.
-/

namespace WasmBackend.Wasm

open Ir (CodeUnit Function Import Signature)
open Stage

/-! ## Well-typed modules -/

/-- What the rules look up for the body of a function of this type. -/
def Module.context (m : Module) (t : FuncType) (b : Body) : TypeContext where
  locals := t.params ++ b.locals
  globals := m.globals.map fun g ↦ (.i32, g.mutable)
  functions := (m.imports.map ImportedFunction.type ++ m.functions).map fun n ↦
    m.types.getD n {}
  types := m.types
  results := t.results

/-- Every function has a type of the module with at most one result, and every body leaves what the
type of its function promises. -/
structure Module.WellTyped (m : Module) : Prop where
  results : ∀ t ∈ m.types, t.results.length ≤ 1
  imports : ∀ i ∈ m.imports, i.type < m.types.length
  bodies : List.Forall₂
    (fun n b ↦ ∃ t, m.types[n]? = some t ∧ CodeTyped (m.context t b) b.code [] t.results.reverse)
    m.functions m.bodies

/-! ## The types of a unit -/

/-- The functions with their signatures, imports first. -/
def signatures (u : CodeUnit) : List (Text × Signature) :=
  u.imports.map (fun i ↦ (i.name, i.sig)) ++ u.funcs.map fun f ↦ (f.name, f.signature)

/-- The signature of a function by name. -/
def signatureOf? (u : CodeUnit) (name : Text) : Option Signature :=
  (signatures u).lookup name

theorem map_fst_signatures (u : CodeUnit) : (signatures u).map Prod.fst = functionNames u := by
  simp [signatures, functionNames, Function.comp_def]

/-- The unit has a function of this type or calls a value of it. -/
def UsesType (u : CodeUnit) (t : FuncType) : Prop :=
  (∃ i ∈ u.imports, t = .ofSignature i.sig) ∨ (∃ f ∈ u.funcs, t = .ofSignature f.signature)
    ∨ ∃ f ∈ u.funcs, Codegen.CallsType f t

/-- No two types that the unit uses have the same key. -/
def KeysDiffer (u : CodeUnit) : Prop :=
  ∀ t t', UsesType u t → UsesType u t' → t.key = t'.key → t = t'

/-- Without wide floats among the parameters no two types have the same key. -/
theorem keysDiffer_of_narrow {u : CodeUnit} (h : ∀ t, UsesType u t → .f64 ∉ t.params) :
    KeysDiffer u :=
  fun t t' ht ht' hkey ↦ FuncType.eq_of_key_eq (h t ht) (h t' ht') hkey

/-- The functions of the unit are in single-assignment form and typed. -/
structure Typed (u : CodeUnit) : Prop where
  assigned : ∀ f ∈ u.funcs, ∃ ts, f.AssignedOnce ts
  typed : ∀ f ∈ u.funcs, f.RegisterTyped (signatureOf? u)

/-! ## Bodies -/

/-- The context of a body of the function, in a module with at least these types. -/
structure Fits (u : CodeUnit) (types : List FuncType) (f : Function) (b : Body) (Γ : TypeContext) :
    Prop where
  locals_eq : Γ.locals = f.params.map Prim.valType ++ b.locals
  globals_eq : Γ.globals = [(.i32, false), (.i32, true)]
  functions : ∀ name sig n, signatureOf? u name = some sig →
    Codegen.functionIndex (functionNumbers u) name = .ok n →
      Γ.functions[n]? = some (.ofSignature sig)
  types_prefix : types <+: Γ.types
  called : ∀ t n, Codegen.CallsType f t → HasType Γ.types n t → Γ.types[n]? = some t
  results_eq : Γ.results = (FuncType.ofSignature f.signature).results
  labels_eq : Γ.labels = 0

/-- The body is typed in every context that fits. -/
def BodyTyped (u : CodeUnit) (types : List FuncType) (f : Function) (b : Body) : Prop :=
  ∀ Γ, Fits u types f b Γ → CodeTyped Γ b.code [] Γ.results.reverse

theorem BodyTyped.extend {u : CodeUnit} {types more : List FuncType} {f : Function} {b : Body}
    (h : BodyTyped u types f b) (hinit : types <+: more) : BodyTyped u more f b :=
  fun Γ hΓ ↦ h Γ { hΓ with types_prefix := hinit.trans hΓ.types_prefix }

namespace Emission

/-- Types are only added, and those that the unit uses. -/
structure ExtendsUsed (u : CodeUnit) (s t : Emission) : Prop extends s.Extends t where
  used : (∀ τ ∈ s.types, UsesType u τ) → ∀ τ ∈ t.types, UsesType u τ

theorem ExtendsUsed.trans {u : CodeUnit} {s t r : Emission} (h : s.ExtendsUsed u t)
    (h' : t.ExtendsUsed u r) : s.ExtendsUsed u r where
  toExtends := h.toExtends.trans h'.toExtends
  used hs := h'.used (h.used hs)

theorem ensures_typeIndex_used {u : CodeUnit} {t : FuncType} {s : Emission}
    (h : (s.types.map FuncType.key).Nodup) (ht : UsesType u t) :
    Ensures (typeIndex t) s fun _ s' ↦ s.ExtendsUsed u s' := by
  unfold typeIndex
  simp only [meets_bind, meets_get, meets_modify, meets_pure]
  refine ⟨⟨nodup_intern t h, prefix_intern t s.types⟩, fun hs τ hτ ↦ ?_⟩
  obtain hτ | rfl := mem_intern hτ
  · exact hs τ hτ
  · exact ht

/-- The numbers of the types of some signatures of the unit. -/
theorem ensures_typeIndices_used {α : Type} {u : CodeUnit} {typeOf : α → FuncType} {xs : List α}
    {s : Emission} (h : (s.types.map FuncType.key).Nodup) (hxs : ∀ x ∈ xs, UsesType u (typeOf x)) :
    Ensures (xs.mapM fun x ↦ typeIndex (typeOf x)) s fun _ t ↦ s.ExtendsUsed u t := by
  have hall : Ensures (xs.mapM fun x ↦ typeIndex (typeOf x)) s fun ns t ↦
      s.ExtendsUsed u t ∧ List.Forall₂ (fun _ _ ↦ True) xs ns :=
    ensures_mapM_of_mono ⟨extends_refl h, fun hs ↦ hs⟩ (fun _ _ ↦ ExtendsUsed.trans)
      (fun _ _ _ _ _ _ ↦ trivial) fun x hx t ht ↦
        (ensures_typeIndex_used ht.nodup (hxs x hx)).imp fun _ _ h ↦ ⟨h, trivial⟩
  exact hall.imp fun _ _ h ↦ h.1

/-- The body of a typed function is typed. -/
theorem ensures_bodyOf_typed {u : CodeUnit} {memory : MemoryPlan} {parent : Nat} {f : Function}
    {s : Emission} (hu : Typed u) (hf : f ∈ u.funcs) (h : (s.types.map FuncType.key).Nodup) :
    Ensures (bodyOf u memory (functionNumbers u) parent f) s fun b t ↦
      s.ExtendsUsed u t ∧ BodyTyped u t.types f b := by
  unfold bodyOf
  simp only [Ensures, meets_bind, meets_modify, meets_get, meets_ofExcept]
  split
  · rename_i usage husage
    split
    rename_i result e hrun
    cases result with
    | error => trivial
    | ok b =>
      obtain ⟨ts, hts⟩ := hu.assigned f hf
      have hprepared : Codegen.Prepared
          { unit := u, memory := memory, functions := functionNumbers u, function := f,
            usage := usage } ts :=
        ⟨hts, husage⟩
      have hstart : Codegen.Sound
          { unit := u, memory := memory, functions := functionNumbers u, function := f,
            usage := usage } { types := s.types } :=
        { functions := functionNumbers_lt u, types := h, locals := List.nodup_nil, typed := by simp,
          code := trivial }
      obtain ⟨hsound, hgrows, rfl⟩ := (Codegen.keeps_body _ hstart trivial).of_eq hrun
      obtain ⟨-, -, -, -, hcalled, -⟩ :=
        (Codegen.meets_codeOf s.types hts.laidOut.trees_eq).ensures.of_eq hrun
      refine ⟨⟨⟨hsound.types, hgrows.types⟩, fun hs τ hτ ↦ ?_⟩, fun Γ hΓ ↦ ?_⟩
      · exact (hcalled τ hτ).elim (hs τ) fun hcalls ↦ .inr (.inr ⟨f, hf, hcalls⟩)
      · have htyping : Codegen.Typing _ e (signatureOf? u) ts Γ :=
          { prepared := hprepared, typed := hu.typed f hf, locals_eq := hΓ.locals_eq,
            locals_typed := hsound.typed, globals_eq := hΓ.globals_eq, functions := hΓ.functions,
            types_prefix := hΓ.types_prefix, called := hΓ.called, results_eq := hΓ.results_eq }
        exact htyping.codeTyped_of_body hΓ.labels_eq hrun
  · trivial

/-- The types of a module are those that the unit uses, and its bodies are typed. -/
theorem ensures_run_typed {u : CodeUnit} {limits : MemoryLimits} {parent : Nat} {s : Emission}
    (hu : Typed u) (hs : s.types = []) :
    Ensures (run u limits parent) s fun result _ ↦ ∀ m, result = some m →
      (∀ τ ∈ m.types, UsesType u τ) ∧ List.Forall₂ (BodyTyped u m.types) u.funcs m.bodies := by
  have hnodup : (s.types.map FuncType.key).Nodup := by simp [hs]
  have himported : ∀ i ∈ u.imports, UsesType u (FuncType.ofSignature i.sig) :=
    fun i hi ↦ .inl ⟨i, hi, rfl⟩
  have hdefined : ∀ f ∈ u.funcs, UsesType u (FuncType.ofSignature f.signature) :=
    fun f hf ↦ .inr (.inl ⟨f, hf, rfl⟩)
  unfold run
  simp only [Ensures, meets_bind, meets_ofExcept]
  split
  · rename_i plan hplan
    rw [meets_ite]
    refine ⟨fun _ ↦ ?_, fun _ ↦ ?_⟩
    · rw [meets_bind, meets_modify, meets_pure]
      intro m hm
      cases hm
    rw [meets_bind]
    refine (ensures_typeIndices_used hnodup himported).imp ?_
    rintro importTypes t₁ h₁
    rw [meets_bind]
    refine (ensures_typeIndices_used h₁.nodup hdefined).imp ?_
    rintro funcTypes t₂ h₂
    rw [meets_bind]
    have hbodies : Ensures (u.funcs.mapM (bodyOf u plan (functionNumbers u) parent)) t₂
        fun bs t ↦ t₂.ExtendsUsed u t ∧ List.Forall₂ (BodyTyped u t.types) u.funcs bs :=
      ensures_mapM_of_mono ⟨extends_refl h₂.nodup, fun h ↦ h⟩ (fun _ _ ↦ ExtendsUsed.trans)
        (fun _ _ _ _ h hb ↦ hb.extend h.kept)
        fun f hf _ h ↦ ensures_bodyOf_typed hu hf h.nodup
    refine hbodies.imp ?_
    rintro bodies t₃ ⟨h₃, hbodies⟩
    rw [meets_bind, meets_ofExcept]
    split
    · rw [meets_bind, meets_ofExcept]
      split
      · rw [meets_bind, meets_get, meets_pure]
        intro m hm
        cases hm
        exact ⟨((h₁.trans h₂).trans h₃).used (by simp [hs]), hbodies⟩
      · trivial
    · trivial
  · trivial

end Emission

/-! ## Modules -/

section

variable {u : CodeUnit} {limits : MemoryLimits} {plan : MemoryPlan} {m : Module}

/-- Where keys differ, the type under a number is the one that was asked for. -/
theorem HasType.getElem?_eq_of_used {t : FuncType} {n : Nat} (h : HasType m.types n t)
    (hkeys : KeysDiffer u) (hused : ∀ τ ∈ m.types, UsesType u τ) (ht : UsesType u t) :
    m.types[n]? = some t := by
  obtain ⟨t', ht', hkey⟩ := h
  rw [ht', hkeys t' t (hused t' (List.mem_of_getElem? ht')) ht hkey]

theorem usesType_of_mem_signatures {e : Text × Signature} (he : e ∈ signatures u) :
    UsesType u (.ofSignature e.2) := by
  simp only [signatures, List.mem_append, List.mem_map] at he
  obtain ⟨i, hi, rfl⟩ | ⟨f, hf, rfl⟩ := he
  · exact .inl ⟨i, hi, rfl⟩
  · exact .inr (.inl ⟨f, hf, rfl⟩)

/-- The types of the functions stand in the order of the functions. -/
theorem Emitted.types_of_signatures (h : Emitted u limits plan m) :
    List.Forall₂ (fun e n ↦ HasType m.types n (.ofSignature e.2)) (signatures u)
      (m.imports.map ImportedFunction.type ++ m.functions) := by
  refine List.rel_append ?_ ?_
  · rw [List.forall₂_map_left_iff, List.forall₂_map_right_iff]
    exact h.imports.imp fun _ _ hi ↦ hi.2.2
  · rw [List.forall₂_map_left_iff]
    exact h.functions

/-- The signature under a name is that of the function at the position of the name. -/
theorem getElem?_signatures (hnames : (functionNames u).Nodup) {name : Text} {sig : Signature}
    {n : Nat} (hsig : signatureOf? u name = some sig)
    (hn : Codegen.functionIndex (functionNumbers u) name = .ok n) :
    (signatures u)[n]? = some (name, sig) := by
  have hname := (Emission.functionIndex_numberFunctions hnames).1 hn
  rw [← map_fst_signatures] at hname hnames
  obtain ⟨k, hk⟩ := List.mem_iff_getElem?.1 ((lookup_eq_some_iff_mem hnames).1 hsig)
  have hkname : ((signatures u).map Prod.fst)[k]? = some name := by
    rw [List.getElem?_map, hk]
    rfl
  have hlt : k < ((signatures u).map Prod.fst).length := (List.getElem?_eq_some_iff.1 hkname).1
  obtain rfl : k = n := (List.getElem?_inj hlt hnames).1 (hkname.trans hname.symm)
  exact hk

/-- In the context of a body stand the types of the functions, each under its number. -/
theorem Emitted.getElem?_context_functions (h : Emitted u limits plan m)
    (hkeys : KeysDiffer u) (hused : ∀ τ ∈ m.types, UsesType u τ) {t : FuncType} {b : Body}
    {e : Text × Signature} {n : Nat} (he : (signatures u)[n]? = some e) :
    (m.context t b).functions[n]? = some (.ofSignature e.2) := by
  obtain ⟨hlt, rfl⟩ := List.getElem?_eq_some_iff.1 he
  have htypes := h.types_of_signatures
  have hlt' : n < (m.imports.map ImportedFunction.type ++ m.functions).length :=
    htypes.length_eq ▸ hlt
  have htype := (htypes.get hlt hlt').getElem?_eq_of_used hkeys hused
    (usesType_of_mem_signatures (List.getElem_mem hlt))
  show ((m.imports.map ImportedFunction.type ++ m.functions).map _)[n]? = _
  rw [List.getElem?_map, List.getElem?_eq_getElem hlt', Option.map_some, List.getD_eq_getElem?_getD]
  simp only [List.get_eq_getElem] at htype
  rw [htype, Option.getD_some]

/-- Two lists that go with a third one go with each other. -/
theorem forall₂_of_left {α β γ : Type} {r : α → β → Prop} {r' : α → γ → Prop} {q : β → γ → Prop}
    {xs : List α} {ys : List β} {zs : List γ} (h : List.Forall₂ r xs ys)
    (h' : List.Forall₂ r' xs zs) (hq : ∀ x ∈ xs, ∀ y z, r x y → r' x z → q y z) :
    List.Forall₂ q ys zs := by
  induction h generalizing zs with
  | nil =>
    cases h'
    exact .nil
  | cons hr _ ih =>
    cases h' with
    | cons hr' hrest =>
      exact .cons (hq _ List.mem_cons_self _ _ hr hr')
        (ih hrest fun x hx ↦ hq x (List.mem_cons_of_mem _ hx))

/-- **What is emitted for a typed unit is well typed**, when names differ and keys do. -/
theorem wellTyped_of_run {parent : Nat} {s t : Emission} (hu : Typed u)
    (hnames : (functionNames u).Nodup) (hkeys : KeysDiffer u) (hs : s.types = [])
    (hrun : Emission.run u limits parent s = (.ok (some m), t)) : m.WellTyped := by
  have hnodup : (s.types.map FuncType.key).Nodup := by simp [hs]
  obtain ⟨plan, -, hm⟩ := (Emission.ensures_run hnodup).of_eq hrun m rfl
  obtain ⟨hused, hbodies⟩ := (Emission.ensures_run_typed hu hs).of_eq hrun m rfl
  constructor
  case results =>
    intro t ht
    obtain ⟨i, -, rfl⟩ | ⟨f, -, rfl⟩ | ⟨f, -, _, -, id, -, i, -, sig, -, rfl⟩ := hused t ht <;>
      (unfold FuncType.ofSignature; split <;> simp)
  case imports =>
    intro i hi
    obtain ⟨_, -, -, -, htype⟩ := exists_of_mem_right hm.imports hi
    exact htype.lt_length
  case bodies =>
    refine forall₂_of_left hm.functions hbodies fun f hf n b hn hb ↦ ?_
    have hused' : UsesType u (.ofSignature f.signature) := .inr (.inl ⟨f, hf, rfl⟩)
    refine ⟨_, hn.getElem?_eq_of_used hkeys hused hused', hb _ ?_⟩
    exact
      { locals_eq := rfl
        globals_eq := by simp [Module.context, hm.globals]
        functions := fun name sig n hsig hn ↦
          hm.getElem?_context_functions hkeys hused (getElem?_signatures hnames hsig hn)
        types_prefix := List.prefix_rfl
        called := fun t n ht hn ↦
          hn.getElem?_eq_of_used hkeys hused (.inr (.inr ⟨f, hf, ht⟩))
        results_eq := rfl
        labels_eq := rfl }

end

/-- A unit of one function that doubles its parameter. -/
def doubling : CodeUnit where
  funcs :=
    [{ name := "f", params := [.i32], result := .i32, vars := #[.i32, .i32], body := [1],
       blocks := #[{ instrs := [{ op := .add, dst := [1], args := [0, 0], storage := .i32 },
                                { op := .ret, args := [1] }] }] }]

theorem typed_doubling : Typed doubling := by
  constructor
  · intro f hf
    obtain rfl := List.mem_singleton.1 hf
    refine ⟨[.basic 1], ⟨rfl, ⟨⟨rfl, rfl, rfl, rfl⟩, trivial⟩, by decide, by decide⟩, ?_⟩
    exact ⟨by decide, by decide, by decide, by decide⟩
  · intro f hf
    obtain rfl := List.mem_singleton.1 hf
    refine ⟨by decide, fun ts hts ↦ ?_⟩
    obtain rfl : [.basic 1] = ts := by
      cases hts
      rfl
    intro id hid
    obtain rfl := List.mem_singleton.1 hid
    refine ⟨?_, by decide, by decide⟩
    intro i hi
    rcases List.mem_cons.1 hi with rfl | hi
    · exact ⟨rfl, rfl⟩
    · obtain rfl := List.mem_singleton.1 hi
      exact ⟨rfl, rfl⟩

/-- The unit is emitted, and what is emitted is well typed. -/
example : ∃ m t, Emission.run doubling {} 0 {} = (.ok (some m), t) ∧ m.WellTyped := by
  have hkeys : KeysDiffer doubling := by
    refine keysDiffer_of_narrow fun t ht ↦ ?_
    rcases ht with ⟨i, hi, -⟩ | ⟨f, hf, rfl⟩ | ⟨f, hf, ts, hts, id, hid, i, hi, sig, hsig, -⟩
    · cases hi
    · obtain rfl := List.mem_singleton.1 hf
      decide
    · obtain rfl := List.mem_singleton.1 hf
      obtain rfl : [.basic 1] = ts := by
        cases hts
        rfl
      obtain rfl := List.mem_singleton.1 hid
      rcases List.mem_cons.1 hi with rfl | hi
      · cases hsig
      · obtain rfl := List.mem_singleton.1 hi
        cases hsig
  obtain ⟨m, t, hrun⟩ : ∃ m t, Emission.run doubling {} 0 {} = (.ok (some m), t) := ⟨_, _, rfl⟩
  exact ⟨m, t, hrun, wellTyped_of_run typed_doubling (by decide) hkeys rfl hrun⟩

end WasmBackend.Wasm
