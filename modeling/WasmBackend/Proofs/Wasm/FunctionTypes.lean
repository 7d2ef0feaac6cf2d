import Mathlib
import WasmBackend.Wasm.Module

/-!
# Function types of a module

A type is interned by its key, so no key stands twice among the types of a module, and the type at
the number that comes out has the key that was asked for.  Without wide floats among the parameters
the bar of a key stands nowhere else, and the key is as good as the type.
-/

namespace WasmBackend.Wasm

/-- The type with this number has the key of `t`. -/
def HasType (types : List FuncType) (n : Nat) (t : FuncType) : Prop :=
  ∃ u, types[n]? = some u ∧ u.key = t.key

section Types

variable {types more : List FuncType} {n : Nat} {t u : FuncType}

theorem HasType.lt_length (h : HasType types n t) : n < types.length := by
  obtain ⟨u, hu, -⟩ := h
  exact (List.getElem?_eq_some_iff.mp hu).1

theorem HasType.getElem?_map_key (h : HasType types n t) :
    (types.map FuncType.key)[n]? = some t.key := by
  obtain ⟨u, hu, hkey⟩ := h
  rw [List.getElem?_map, hu, Option.map_some, hkey]

theorem HasType.extend (h : HasType types n t) (hinit : types <+: more) :
    HasType more n t := by
  obtain ⟨u, hu, hkey⟩ := h
  obtain ⟨rest, rfl⟩ := hinit
  refine ⟨u, ?_, hkey⟩
  rw [List.getElem?_append_left (List.getElem?_eq_some_iff.mp hu).1, hu]

theorem prefix_intern (t : FuncType) (types : List FuncType) : types <+: (t.intern types).2 := by
  unfold FuncType.intern
  split
  · exact List.prefix_rfl
  · exact List.prefix_append _ _

theorem hasType_intern (t : FuncType) (types : List FuncType) :
    HasType (t.intern types).2 (t.intern types).1 t := by
  unfold FuncType.intern
  split
  · rename_i i hi
    obtain ⟨hlt, hkey, -⟩ := List.findIdx?_eq_some_iff_getElem.mp hi
    exact ⟨types[i], List.getElem?_eq_getElem hlt, of_decide_eq_true hkey⟩
  · exact ⟨t, by simp, rfl⟩

theorem nodup_intern (t : FuncType) (h : (types.map FuncType.key).Nodup) :
    ((t.intern types).2.map FuncType.key).Nodup := by
  unfold FuncType.intern
  split
  · exact h
  · rename_i hnone
    rw [List.map_append, List.map_singleton]
    refine List.nodup_append.mpr ⟨h, by simp, ?_⟩
    rintro key hkey _ ht rfl
    obtain ⟨u, hu, rfl⟩ := List.mem_map.mp hkey
    obtain ht := List.mem_singleton.mp ht
    simpa [ht] using List.findIdx?_eq_none_iff.mp hnone u hu

theorem mem_intern (h : u ∈ (t.intern types).2) : u ∈ types ∨ u = t := by
  unfold FuncType.intern at h
  split at h
  · exact .inl h
  · exact (List.mem_append.mp h).imp_right List.mem_singleton.mp

/-- Types have the same number exactly when they have the same key. -/
theorem HasType.eq_iff {m : Nat} (hnodup : (types.map FuncType.key).Nodup)
    (h : HasType types n t) (h' : HasType types m u) : n = m ↔ t.key = u.key := by
  have hn : (types.map FuncType.key)[n]? = some t.key := h.getElem?_map_key
  have hm : (types.map FuncType.key)[m]? = some u.key := h'.getElem?_map_key
  calc n = m ↔ (types.map FuncType.key)[n]? = (types.map FuncType.key)[m]? :=
        (List.getElem?_inj (List.getElem?_eq_some_iff.mp hn).1 hnodup).symm
    _ ↔ t.key = u.key := by rw [hn, hm, Option.some_inj]

theorem ValType.code_injective : Function.Injective ValType.code := by
  intro t u h
  simpa [h] using (ValType.ofCode?_code t).symm

/-- A list is told apart from what stands behind a bar that it does not hold. -/
theorem append_bar_inj {α : Type} {bar : α} {xs ys zs ws : List α} (hxs : bar ∉ xs)
    (hys : bar ∉ ys) (h : xs ++ bar :: zs = ys ++ bar :: ws) : xs = ys ∧ zs = ws := by
  obtain ⟨as, has, hbar⟩ | ⟨as, has, hbar⟩ := List.append_eq_append_iff.mp h
  · cases as with
    | nil => simpa [has] using hbar
    | cons a as =>
      obtain ⟨rfl, -⟩ := List.cons_eq_cons.mp hbar
      exact absurd (by simp [has]) hys
  · cases as with
    | nil => simpa [has, eq_comm] using hbar
    | cons a as =>
      obtain ⟨rfl, -⟩ := List.cons_eq_cons.mp hbar
      exact absurd (by simp [has]) hxs

/-- Types without wide floats among their parameters are told apart by their keys. -/
theorem FuncType.eq_of_key_eq (ht : .f64 ∉ t.params) (hu : .f64 ∉ u.params)
    (h : t.key = u.key) : t = u := by
  have hbar {ts : List ValType} (hts : ValType.f64 ∉ ts) : 0x7C ∉ ts.map ValType.code := by
    intro hmem
    obtain ⟨v, hv, hcode⟩ := List.mem_map.mp hmem
    exact hts (@ValType.code_injective v .f64 hcode ▸ hv)
  obtain ⟨hparams, hresults⟩ := append_bar_inj (hbar ht) (hbar hu) h
  cases t
  cases u
  congr
  · exact List.map_injective_iff.mpr ValType.code_injective hparams
  · exact List.map_injective_iff.mpr ValType.code_injective hresults

/-- Where no type has a wide float among its parameters, a type is found under its number. -/
theorem HasType.getElem?_eq (h : HasType types n t) (htypes : ∀ u ∈ types, .f64 ∉ u.params)
    (ht : .f64 ∉ t.params) : types[n]? = some t := by
  obtain ⟨u, hu, hkey⟩ := h
  rw [hu, FuncType.eq_of_key_eq (htypes u (List.mem_of_getElem? hu)) ht hkey]

/-- A wide float reads as the bar of a shorter list of parameters. -/
example :
    FuncType.key ⟨[.i32, .i32, .f64], []⟩ = FuncType.key ⟨[.i32, .i32], [.f64]⟩ := rfl

end Types

end WasmBackend.Wasm
