import WasmBackend.Proofs.Wasm.GeneratedCode
import WasmBackend.Proofs.Wasm.Reading
import WasmBackend.Wasm.Emit

/-!
# What an emitted module holds

Emission gives a module with the planned memory in which every import and function has the type of
its signature, every body names only what there is, and exports and table entries are the numbers
of the functions they name.  All those numbers are bounded by counts, so the module is read back
from its bytes as soon as these can be counted.

Functions are numbered by name.  Whatever the names, a number is below the number of names; when no
name comes twice, the number of a name is its position.
-/

namespace WasmBackend.Wasm.Emission

variable {names : List Text} {name : Text} {i : Nat}

theorem numberFunctions_concat (names : List Text) (name : Text) :
    numberFunctions (names ++ [name]) =
      assocInsert name (numberFunctions names).length (numberFunctions names) := by
  simp [numberFunctions]

section AssocInsert

variable {α β : Type} [DecidableEq α] {key : α} {value : β} {entries : List (α × β)}

theorem assocInsert_cons (e : α × β) : assocInsert key value (e :: entries) =
    if e.1 = key then (e.1, value) :: entries else e :: assocInsert key value entries :=
  rfl

theorem length_assocInsert_le : (assocInsert key value entries).length ≤ entries.length + 1 := by
  induction entries with
  | nil => exact le_rfl
  | cons e entries ih =>
    rw [assocInsert_cons]
    split
    · exact Nat.le_succ _
    · exact Nat.succ_le_succ ih

theorem mem_assocInsert {e : α × β} (h : e ∈ assocInsert key value entries) :
    e = (key, value) ∨ e ∈ entries := by
  induction entries with
  | nil => exact .inl (List.mem_singleton.mp h)
  | cons d entries ih =>
    rw [assocInsert_cons] at h
    split at h
    · rename_i hkey
      obtain rfl | h := List.mem_cons.mp h
      · exact .inl (by rw [hkey])
      · exact .inr (List.mem_cons_of_mem _ h)
    · obtain rfl | h := List.mem_cons.mp h
      · exact .inr List.mem_cons_self
      · exact (ih h).imp_right (List.mem_cons_of_mem _)

/-- A new key goes to the end. -/
theorem assocInsert_eq_append (h : key ∉ entries.map Prod.fst) :
    assocInsert key value entries = entries ++ [(key, value)] := by
  induction entries with
  | nil => rfl
  | cons e entries ih =>
    rw [List.map_cons, List.mem_cons, not_or] at h
    rw [assocInsert_cons, if_neg (Ne.symm h.1), ih h.2, List.cons_append]

end AssocInsert

theorem length_numberFunctions_le (names : List Text) :
    (numberFunctions names).length ≤ names.length := by
  induction names using List.reverseRecOn with
  | nil => exact le_rfl
  | append_singleton names name ih =>
    rw [numberFunctions_concat, List.length_append]
    exact Nat.le_trans length_assocInsert_le (Nat.succ_le_succ ih)

/-- No function has a number as high as the number of names. -/
theorem lt_of_mem_numberFunctions {e : Text × Nat} (h : e ∈ numberFunctions names) :
    e.2 < names.length := by
  induction names using List.reverseRecOn with
  | nil => cases h
  | append_singleton names name ih =>
    rw [numberFunctions_concat] at h
    rw [List.length_append]
    obtain rfl | h := mem_assocInsert h
    · exact Nat.lt_succ_of_le (length_numberFunctions_le names)
    · exact Nat.lt_succ_of_lt (ih h)

/-- Names that are different are numbered in order. -/
theorem numberFunctions_eq_zipIdx (h : names.Nodup) : numberFunctions names = names.zipIdx := by
  induction names using List.reverseRecOn with
  | nil => rfl
  | append_singleton names name ih =>
    obtain ⟨hnames, -, hname⟩ := List.nodup_append.mp h
    have hnew : name ∉ names.zipIdx.map Prod.fst := by
      rw [List.zipIdx_map_fst]
      exact fun hmem ↦ hname name hmem name (List.mem_singleton_self name) rfl
    rw [numberFunctions_concat, ih hnames, assocInsert_eq_append hnew, List.zipIdx_append]
    simp

/-- **When no name comes twice, the number of a function is its position.** -/
theorem functionIndex_numberFunctions (h : names.Nodup) :
    Codegen.functionIndex (numberFunctions names) name = .ok i ↔ names[i]? = some name := by
  have hkeys : (names.zipIdx.map Prod.fst).Nodup := by
    rwa [List.zipIdx_map_fst]
  rw [numberFunctions_eq_zipIdx h, ← List.mem_zipIdx_iff_getElem? (x := (name, i)),
    ← lookup_eq_some_iff_mem hkeys, Codegen.functionIndex]
  cases names.zipIdx.lookup name <;> simp

/-- A name that comes again leaves the number of the next one taken. -/
example : numberFunctions [("a" : Text), "a", "b"] = [(("a" : Text), 1), (("b" : Text), 1)] := by
  decide

end WasmBackend.Wasm.Emission

namespace WasmBackend.Wasm

open Ir (CodeUnit Function Import Signature)
open Stage

/-- The names that functions are numbered by: the imports come first. -/
def functionNames (u : CodeUnit) : List Text :=
  u.imports.map Import.name ++ u.funcs.map Function.name

/-- The numbers of the functions by name. -/
def functionNumbers (u : CodeUnit) : List (Text × Nat) :=
  Emission.numberFunctions (functionNames u)

theorem length_functionNames (u : CodeUnit) :
    (functionNames u).length = u.imports.length + u.funcs.length := by
  simp [functionNames]

/-- The functions that are exported. -/
def exportedFunctions (u : CodeUnit) : List Function :=
  u.funcs.filter fun f ↦ !f.exportName.isEmpty

/-- The module that a unit with a memory plan is emitted as. -/
structure Emitted (u : CodeUnit) (limits : MemoryLimits) (plan : MemoryPlan) (m : Module) :
    Prop where
  /-- No two types have the same key. -/
  types : (m.types.map FuncType.key).Nodup
  imports : List.Forall₂
    (fun i j ↦ j.source = Ir.importModule ∧ j.name = i.symbol ∧
      HasType m.types j.type (FuncType.ofSignature i.sig)) u.imports m.imports
  functions : List.Forall₂
    (fun f n ↦ HasType m.types n (FuncType.ofSignature f.signature)) u.funcs m.functions
  tableSize : m.tableSize = u.table.length
  minPages : m.minPages = limits.normalized.min
  maxPages : m.maxPages = limits.normalized.max
  /-- The planned data, globals and slots fit into the memory there is at the start. -/
  pages : plan.pages ≤ m.minPages
  globals : m.globals = [⟨false, plan.heapBase⟩, ⟨true, plan.heapBase⟩]
  exports : ∃ exports, m.exports = ⟨"memory", .memory, 0⟩ :: exports ∧
    List.Forall₂
      (fun f e ↦ e.name = f.exportName ∧ e.kind = .function ∧
        Codegen.functionIndex (functionNumbers u) f.name = .ok e.index)
      (exportedFunctions u) exports
  elements : List.Forall₂
    (fun name n ↦ Codegen.functionIndex (functionNumbers u) name = .ok n) u.table m.elements
  bodies : List.Forall₂ (fun f b ↦ Codegen.BodyInScope u f m.types b) u.funcs m.bodies
  data : m.data = (u.segments.zip plan.segments).map fun s ↦ ⟨s.2, s.1⟩

namespace Emission

/-! ## Steps of emission -/

/-- Types are only added, and no two have the same key. -/
structure Extends (s t : Emission) : Prop where
  nodup : (t.types.map FuncType.key).Nodup
  kept : s.types <+: t.types

theorem Extends.trans {s t u : Emission} (h : s.Extends t) (h' : t.Extends u) : s.Extends u :=
  { h' with kept := h.kept.trans h'.kept }

theorem extends_refl {s : Emission} (h : (s.types.map FuncType.key).Nodup) : s.Extends s :=
  ⟨h, List.prefix_rfl⟩

theorem ensures_typeIndex {t : FuncType} {s : Emission} (h : (s.types.map FuncType.key).Nodup) :
    Ensures (typeIndex t) s fun n s' ↦ s.Extends s' ∧ HasType s'.types n t := by
  unfold typeIndex
  simp only [meets_bind, meets_get, meets_modify, meets_pure]
  exact ⟨⟨nodup_intern t h, prefix_intern t s.types⟩, hasType_intern t s.types⟩

theorem ensures_narrow {t : FuncType} {s : Emission} (ht : .f64 ∉ t.params)
    (hs : ∀ u ∈ s.types, .f64 ∉ u.params) :
    Ensures (typeIndex t) s fun _ s' ↦ ∀ u ∈ s'.types, .f64 ∉ u.params := by
  unfold typeIndex
  simp only [meets_bind, meets_get, meets_modify, meets_pure]
  intro u hu
  obtain hu | rfl := mem_intern hu
  · exact hs u hu
  · exact ht

/-- The numbers of the types of some signatures. -/
theorem ensures_typeIndices {α : Type} {typeOf : α → FuncType} {xs : List α} {s : Emission}
    (h : (s.types.map FuncType.key).Nodup) :
    Ensures (xs.mapM fun x ↦ typeIndex (typeOf x)) s fun ns t ↦
      s.Extends t ∧ List.Forall₂ (fun x n ↦ HasType t.types n (typeOf x)) xs ns :=
  ensures_mapM_of_mono (extends_refl h) (fun _ _ ↦ Extends.trans)
    (fun _ _ _ _ h hn ↦ hn.extend h.kept)
    fun _ _ _ h ↦ ensures_typeIndex h.nodup

/-- Types are only added, and none of them has a wide float among its parameters. -/
structure ExtendsNarrow (s t : Emission) : Prop extends s.Extends t where
  narrow : ∀ u ∈ t.types, .f64 ∉ u.params

/-- **Function types are told apart exactly** when none has a wide float among its parameters:
types that are numbered one after another stand at their numbers, and their numbers are equal where
they are. -/
theorem ensures_typeIndices_exact {ts : List FuncType} {s : Emission}
    (h : (s.types.map FuncType.key).Nodup) (hs : ∀ t ∈ s.types, .f64 ∉ t.params)
    (hts : ∀ t ∈ ts, .f64 ∉ t.params) :
    Ensures (ts.mapM typeIndex) s fun ns s' ↦
      List.Forall₂ (fun t n ↦ s'.types[n]? = some t) ts ns ∧
        ∀ p ∈ ts.zip ns, ∀ q ∈ ts.zip ns, p.2 = q.2 ↔ p.1 = q.1 := by
  have hall : Ensures (ts.mapM typeIndex) s fun ns s' ↦
      s.ExtendsNarrow s' ∧ List.Forall₂ (fun t n ↦ HasType s'.types n t) ts ns := by
    apply ensures_mapM_of_mono
    case start => exact ⟨extends_refl h, hs⟩
    case trans =>
      intro t u ht hu
      exact ⟨ht.toExtends.trans hu.toExtends, hu.narrow⟩
    case mono =>
      intro t u a n htu hn
      exact hn.extend htu.kept
    case step =>
      intro a ha t ht
      apply (ensures_typeIndex ht.nodup).and (ensures_narrow (hts a ha) ht.narrow) |>.imp
      rintro n u ⟨⟨hu, hn⟩, hnarrow⟩
      exact ⟨⟨hu, hnarrow⟩, hn⟩
  refine hall.imp ?_
  rintro ns s' ⟨hs', hnumbers⟩
  have hexact : List.Forall₂ (fun t n ↦ s'.types[n]? = some t) ts ns :=
    forall₂_imp_of_mem hnumbers fun t ht n hn ↦ hn.getElem?_eq hs'.narrow (hts t ht)
  refine ⟨hexact, ?_⟩
  rintro ⟨t, n⟩ hp ⟨u, m⟩ hq
  have hn : HasType s'.types n t := (List.forall₂_iff_zip.mp hnumbers).2 hp
  have hm : HasType s'.types m u := (List.forall₂_iff_zip.mp hnumbers).2 hq
  have ht : .f64 ∉ t.params := hts t (List.of_mem_zip hp).1
  have hu : .f64 ∉ u.params := hts u (List.of_mem_zip hq).1
  calc n = m ↔ t.key = u.key := hn.eq_iff hs'.nodup hm
    _ ↔ t = u := ⟨FuncType.eq_of_key_eq ht hu, congrArg FuncType.key⟩

theorem bodyInScope_extend {u : CodeUnit} {f : Function} {types more : List FuncType} {b : Body}
    (h : Codegen.BodyInScope u f types b) (hinit : types <+: more) :
    Codegen.BodyInScope u f more b := by
  have hwithin : (Codegen.bodyScope u f types b).Within (Codegen.bodyScope u f more b) :=
    { labels := le_rfl, locals := le_rfl, functions := le_rfl, types := hinit.length_le,
      globals := le_rfl }
  exact ⟨h.code.mono hwithin, h.locals⟩

theorem ensures_bodyOf {u : CodeUnit} {memory : MemoryPlan} {functions : List (Text × Nat)}
    {parent : Nat} {f : Function} {s : Emission} (h : (s.types.map FuncType.key).Nodup)
    (hfunctions : ∀ p ∈ functions, p.2 < u.imports.length + u.funcs.length) :
    Ensures (bodyOf u memory functions parent f) s fun b t ↦
      s.Extends t ∧ Codegen.BodyInScope u f t.types b := by
  unfold bodyOf
  simp only [Ensures, meets_bind, meets_modify, meets_get, meets_ofExcept]
  split
  · rename_i usage _
    have hbody := ensures_iff.mp <| Codegen.ensures_body
      (c := { unit := u, memory := memory, functions := functions, function := f, usage := usage })
      rfl hfunctions h
    split
    rename_i result c hrun
    cases result with
    | ok b =>
      obtain ⟨hscope, hinit, hnodup⟩ := hbody b c hrun
      exact ⟨⟨hnodup, hinit⟩, hscope⟩
    | error e => trivial
  · trivial

theorem bind_eq_ok {α β ε : Type} {x : Except ε α} {f : α → Except ε β} {b : β}
    (h : x >>= f = .ok b) : ∃ a, x = .ok a ∧ f a = .ok b := by
  cases x with
  | error e => cases h
  | ok a => exact ⟨a, rfl, h⟩

theorem forall₂_of_mapM {α β ε : Type} {f : α → Except ε β} {xs : List α} {ys : List β}
    (h : xs.mapM f = .ok ys) : List.Forall₂ (fun x y ↦ f x = .ok y) xs ys := by
  induction xs generalizing ys with
  | nil =>
    rw [List.mapM_nil] at h
    cases h
    exact .nil
  | cons x xs ih =>
    rw [List.mapM_cons] at h
    obtain ⟨y, hx, h⟩ := bind_eq_ok h
    obtain ⟨zs, hxs, h⟩ := bind_eq_ok h
    cases h
    exact .cons hx (ih hxs)

theorem exportsOf_eq {u : CodeUnit} {functions : List (Text × Nat)} {es : List Export}
    (h : exportsOf u functions = .ok es) :
    ∃ exports, es = ⟨"memory", .memory, 0⟩ :: exports ∧
      List.Forall₂
        (fun f e ↦ e.name = f.exportName ∧ e.kind = .function ∧
          Codegen.functionIndex functions f.name = .ok e.index)
        (exportedFunctions u) exports := by
  unfold exportsOf at h
  dsimp only at h
  obtain ⟨exports, hexports, hes⟩ := bind_eq_ok h
  cases hes
  refine ⟨exports, rfl, (forall₂_of_mapM hexports).imp fun f e he ↦ ?_⟩
  obtain ⟨n, hn, he⟩ := bind_eq_ok he
  cases he
  exact ⟨rfl, rfl, hn⟩

theorem functionNumbers_lt (u : CodeUnit) :
    ∀ p ∈ functionNumbers u, p.2 < u.imports.length + u.funcs.length := by
  intro p hp
  rw [← length_functionNames]
  exact lt_of_mem_numberFunctions hp

theorem imports_of_types {types : List FuncType} {imports : List Import} {ns : List Nat}
    (h : List.Forall₂ (fun i n ↦ HasType types n (FuncType.ofSignature i.sig)) imports ns) :
    List.Forall₂
      (fun i (j : ImportedFunction) ↦ j.source = Ir.importModule ∧ j.name = i.symbol ∧
        HasType types j.type (FuncType.ofSignature i.sig)) imports
      ((imports.zip ns).map fun p ↦ ⟨Ir.importModule, p.1.symbol, p.2⟩) := by
  induction h with
  | nil => exact .nil
  | cons hn _ ih => exact .cons ⟨rfl, rfl, hn⟩ ih

/-- **What emission gives.** -/
theorem ensures_run {u : CodeUnit} {limits : MemoryLimits} {parent : Nat} {s : Emission}
    (h : (s.types.map FuncType.key).Nodup) :
    Ensures (run u limits parent) s fun result _ ↦ ∀ m, result = some m →
      ∃ plan, MemoryPlan.ofUnit u = .ok plan ∧ Emitted u limits plan m := by
  unfold run
  simp only [Ensures, meets_bind, meets_ofExcept]
  split
  · rename_i plan hplan
    rw [meets_ite]
    refine ⟨fun _ ↦ ?_, fun hpages ↦ ?_⟩
    · rw [meets_bind, meets_modify, meets_pure]
      intro m hm
      cases hm
    rw [meets_bind]
    refine (ensures_typeIndices h).imp ?_
    rintro importTypes t₁ ⟨h₁, himports⟩
    rw [meets_bind]
    refine (ensures_typeIndices h₁.nodup).imp ?_
    rintro funcTypes t₂ ⟨h₂, hfuncs⟩
    rw [meets_bind]
    have hbodies : Ensures (u.funcs.mapM (bodyOf u plan (functionNumbers u) parent)) t₂
        fun bs t ↦ t₂.Extends t ∧
          List.Forall₂ (fun f b ↦ Codegen.BodyInScope u f t.types b) u.funcs bs :=
      ensures_mapM_of_mono (extends_refl h₂.nodup) (fun _ _ ↦ Extends.trans)
        (fun _ _ _ _ h hb ↦ bodyInScope_extend hb h.kept)
        fun _ _ _ h ↦ ensures_bodyOf h.nodup (functionNumbers_lt u)
    refine hbodies.imp ?_
    rintro bodies t₃ ⟨h₃, hbodies⟩
    rw [meets_bind, meets_ofExcept]
    split
    · rename_i exports hexports
      rw [meets_bind, meets_ofExcept]
      split
      · rename_i elements helements
        rw [meets_bind, meets_get, meets_pure]
        intro m hm
        cases hm
        refine ⟨plan, hplan, ?_⟩
        constructor
        case types => exact h₃.nodup
        case imports =>
          exact imports_of_types (himports.imp fun _ _ hn ↦ hn.extend (h₂.trans h₃).kept)
        case functions => exact hfuncs.imp fun _ _ hn ↦ hn.extend h₃.kept
        case pages => exact UInt32.not_lt.mp hpages
        case exports => exact exportsOf_eq hexports
        case elements => exact forall₂_of_mapM helements
        case bodies => exact hbodies
        all_goals rfl
      · trivial
    · trivial
  · trivial

end Emission

/-! ## What follows for emitted modules -/

section Emitted

variable {u : CodeUnit} {limits : MemoryLimits} {plan : MemoryPlan} {m : Module}

/-- There are no more functions than bytes. -/
theorem Emitted.functions_le (h : Emitted u limits plan m) :
    u.imports.length + u.funcs.length ≤ m.encode.length := by
  have hcounts := m.counts_le_length
  have himports := h.imports.length_eq
  have hfunctions := h.functions.length_eq
  omega

theorem Emitted.functionIndex_lt (h : Emitted u limits plan m) {name : Text} {n : Nat}
    (hn : Codegen.functionIndex (functionNumbers u) name = .ok n) : n < m.encode.length :=
  lt_of_lt_of_le (Codegen.functionIndex_lt (Emission.functionNumbers_lt u) hn) h.functions_le

theorem HasType.lt_length_encode {t : FuncType} {n : Nat} (hn : HasType m.types n t) :
    n < m.encode.length := by
  have hcounts := m.counts_le_length
  have hlt := hn.lt_length
  omega

/-- **An emitted module whose bytes can be counted has no number that does not fit**, when the
variables of its functions can be counted. -/
theorem Emitted.fits (h : Emitted u limits plan m) (hlength : m.encode.length < u32Bound)
    (hvars : ∀ f ∈ u.funcs, f.params.length + f.vars.size < u32Bound) : m.Fits := by
  constructor
  case length => exact hlength
  case imports =>
    intro i hi
    obtain ⟨_, -, -, -, htype⟩ := exists_of_mem_right h.imports hi
    exact htype.lt_length_encode.trans hlength
  case functions =>
    intro n hn
    obtain ⟨_, -, htype⟩ := exists_of_mem_right h.functions hn
    exact htype.lt_length_encode.trans hlength
  case tableSize =>
    have hcounts := m.counts_le_length
    rw [h.tableSize, h.elements.length_eq]
    omega
  case exports =>
    obtain ⟨exports, heq, hexports⟩ := h.exports
    intro e he
    rw [heq] at he
    obtain rfl | he := List.mem_cons.mp he
    · exact lt_of_le_of_lt (Nat.zero_le _) hlength
    · obtain ⟨_, -, -, -, hindex⟩ := exists_of_mem_right hexports he
      exact (h.functionIndex_lt hindex).trans hlength
  case elements =>
    intro n hn
    obtain ⟨_, -, hindex⟩ := exists_of_mem_right h.elements hn
    exact (h.functionIndex_lt hindex).trans hlength
  case locals =>
    intro b hb
    obtain ⟨f, hf, hscope⟩ := exists_of_mem_right h.bodies hb
    have hlocals := hscope.length_locals_le
    have hvars := hvars f hf
    omega
  case code =>
    intro b hb
    obtain ⟨f, hf, hscope⟩ := exists_of_mem_right h.bodies hb
    refine hscope.code.fits _ ?_
    have hlocals := hscope.length_locals_le
    have hvars := hvars f hf
    have hcode := Module.length_code_le hb
    have hcounts := m.counts_le_length
    exact
      { labels := by simpa [Codegen.bodyScope] using hcode.trans hlength.le
        locals := by
          simp only [Codegen.bodyScope]
          omega
        functions := h.functions_le.trans hlength.le
        types := by
          simp only [Codegen.bodyScope]
          omega
        globals := by
          simp only [Codegen.bodyScope]
          norm_num }

/-- **What is emitted for a unit is read back from its bytes.** -/
theorem decode_of_run {parent : Nat} {s t : Emission}
    (hrun : Emission.run u limits parent s = (.ok (some m), t)) (hs : s.types = [])
    (hlength : m.encode.length < u32Bound)
    (hvars : ∀ f ∈ u.funcs, f.params.length + f.vars.size < u32Bound) :
    ∃ plan, MemoryPlan.ofUnit u = .ok plan ∧ Emitted u limits plan m ∧
      Module.decode m.encode = some m := by
  have hnodup : (s.types.map FuncType.key).Nodup := by
    simp [hs]
  obtain ⟨plan, hplan, hm⟩ := (Emission.ensures_run hnodup).of_eq hrun m rfl
  exact ⟨plan, hplan, hm, Module.decode_encode (hm.fits hlength hvars)⟩

/-- The unit of one exported function that only returns. -/
example :
    ((Emission.run
        { funcs := [{ name := "f", exportName := "g", blocks := #[{ instrs := [{ op := .ret }] }],
                      body := [1] }] } {} 0 {}).1.toOption.join.bind
      fun m ↦ (Module.decode m.encode).map Module.exports) =
    some [⟨"memory", .memory, 0⟩, ⟨"g", .function, 0⟩] := by
  decide +kernel

/-! ## Functions by position -/

/-- When no name comes twice, the table holds the positions of the functions it names. -/
theorem Emitted.elements_positions (h : Emitted u limits plan m)
    (hnames : (functionNames u).Nodup) :
    List.Forall₂ (fun name n ↦ (functionNames u)[n]? = some name) u.table m.elements :=
  h.elements.imp fun _ _ ↦ (Emission.functionIndex_numberFunctions hnames).mp

/-- When no name comes twice, the exports are the memory and the positions of the functions with an
export name. -/
theorem Emitted.exports_positions (h : Emitted u limits plan m)
    (hnames : (functionNames u).Nodup) :
    ∃ exports, m.exports = ⟨"memory", .memory, 0⟩ :: exports ∧
      List.Forall₂
        (fun f e ↦ e.name = f.exportName ∧ e.kind = .function ∧
          (functionNames u)[e.index]? = some f.name)
        (exportedFunctions u) exports := by
  obtain ⟨exports, heq, hexports⟩ := h.exports
  refine ⟨exports, heq, hexports.imp ?_⟩
  rintro f e ⟨hname, hkind, hindex⟩
  exact ⟨hname, hkind, (Emission.functionIndex_numberFunctions hnames).mp hindex⟩

end Emitted

end WasmBackend.Wasm
