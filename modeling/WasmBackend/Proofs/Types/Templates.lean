import Mathlib
import WasmBackend.Types.Store

/-!
# Telling templates and applications apart

The templates that the store of a program starts with have different identities, and none holds an
opening bracket.  So the text of an application, its identity followed by the handles of its
arguments in brackets, says what is applied to what: looking an application up by its text finds
the same as looking it up by template and arguments.
-/

namespace WasmBackend

/-! ## Decimal numbers -/

namespace Text

theorem bytes_ofNat (n : Nat) :
    (ofNat n).bytes = (Nat.toDigits 10 n).flatMap String.utf8EncodeChar := by
  show (toString n).toByteArray.data.toList = _
  rw [Nat.toString_eq_ofList_toDigits, String.toByteArray_ofList]
  simp [List.utf8Encode]

theorem ofNat_injective : Function.Injective ofNat := by
  intro m n h
  have hstring : (toString m).toByteArray = (toString n).toByteArray :=
    ByteArray.ext (Array.toList_inj.1 (congrArg Text.bytes h))
  have hrepr : m.repr.toList = n.repr.toList :=
    congrArg String.toList (String.toByteArray_inj.1 hstring)
  rw [Nat.toList_repr, Nat.toList_repr] at hrepr
  rw [← Nat.ofDigitChars_ten_toDigits (n := m), hrepr, Nat.ofDigitChars_ten_toDigits]

/-- A decimal number is made of digits. -/
theorem isDigit_of_mem_ofNat {n : Nat} {b : UInt8} (hb : b ∈ (ofNat n).bytes) :
    48 ≤ b.toNat ∧ b.toNat ≤ 57 := by
  rw [bytes_ofNat] at hb
  obtain ⟨c, hc, hb⟩ := List.mem_flatMap.1 hb
  have hdigit : 48 ≤ c.val.toNat ∧ c.val.toNat ≤ 57 := by
    simpa [Char.isDigit, UInt32.le_iff_toNat_le] using
      Nat.isDigit_of_mem_toDigits (by decide) (by decide) hc
  have hcode : String.utf8EncodeChar c = [UInt8.ofNat c.val.toNat] := by
    simp only [String.utf8EncodeChar]
    rw [if_pos (by omega)]
  rw [hcode, List.mem_singleton] at hb
  subst hb
  simp only [UInt8.toNat_ofNat']
  omega

theorem ofNat_ne_nil (n : Nat) : (ofNat n).bytes ≠ [] := by
  rw [bytes_ofNat, ne_eq, List.flatMap_eq_nil_iff]
  intro h
  obtain ⟨c, hc⟩ := List.exists_mem_of_ne_nil _ (Nat.toDigits_ne_nil (n := n) (b := 10))
  exact String.utf8EncodeChar_ne_nil (h c hc)

theorem bytes_join (sep : Text) (ts : List Text) :
    (join sep ts).bytes = List.intercalate sep.bytes (ts.map bytes) := by
  have hmap : (ts.intersperse sep).map bytes = (ts.map bytes).intersperse sep.bytes := by
    induction ts with
    | nil => rfl
    | cons t ts ih => cases ts <;> simp_all
  exact congrArg List.flatten hmap

theorem mem_join {sep : Text} {ts : List Text} {b : UInt8} (hb : b ∈ (join sep ts).bytes) :
    b ∈ sep.bytes ∨ ∃ t ∈ ts, b ∈ t.bytes := by
  rw [bytes_join] at hb
  induction ts with
  | nil => cases hb
  | cons t ts ih =>
    cases ts with
    | nil => exact .inr ⟨t, by simp, by simpa using hb⟩
    | cons u us =>
      rw [List.map_cons, List.map_cons, List.intercalate_cons_cons, List.mem_append,
        List.mem_append] at hb
      obtain (hb | hb) | hb := hb
      · exact .inr ⟨t, by simp, hb⟩
      · exact .inl hb
      · refine (ih hb).imp_right ?_
        rintro ⟨v, hv, hbv⟩
        exact ⟨v, List.mem_cons_of_mem t hv, hbv⟩

/-- Numbers between commas can be read off again. -/
theorem join_ofNat_injective : Function.Injective fun ns : List Nat ↦ join "," (ns.map ofNat) := by
  have hsplit {ns : List Nat} (hns : ns ≠ []) :
      (join "," (ns.map ofNat)).bytes.splitOn 44 = ns.map fun n ↦ (ofNat n).bytes := by
    rw [bytes_join, List.map_map]
    refine List.splitOn_intercalate 44 ?_ (by simpa using hns)
    intro l hl hcomma
    obtain ⟨n, -, rfl⟩ := List.mem_map.1 hl
    exact absurd (isDigit_of_mem_ofNat hcomma) (by decide)
  have hne {ns : List Nat} (hns : ns ≠ []) : join "," (ns.map ofNat) ≠ {} := by
    intro h
    have hnil : [[]] = ns.map fun n ↦ (ofNat n).bytes := by
      rw [← hsplit hns, h]
      rfl
    obtain ⟨n, -, hn⟩ := List.mem_map.1 (hnil ▸ List.mem_singleton_self ([] : List UInt8))
    exact ofNat_ne_nil n hn
  intro ms ns h
  by_cases hms : ms = [] <;> by_cases hns : ns = []
  · rw [hms, hns]
  · subst hms
    exact absurd h.symm (hne hns)
  · subst hns
    exact absurd h (hne hms)
  · have hbytes := (hsplit hms).symm.trans
      ((congrArg (fun t ↦ t.bytes.splitOn 44) h).trans (hsplit hns))
    exact List.map_injective_iff.2 (fun _ _ h ↦ ofNat_injective (congrArg Text.mk h)) hbytes

end Text

/-! ## Identities -/

namespace Template

/-- A template that the store of a program starts with. -/
def Native (p : Program) (t : Template) : Prop :=
  t ∈ (TypeStore.ofProgram p).templates

variable {p : Program} {t t' : Template}

theorem Native.cases (ht : t.Native p) :
    (∃ q ∈ Prim.known.tail, t = .prim q) ∨ t = .pointer ∨ t = .function ∨
      ∃ id, t = .aggregate id := by
  have ht' : t ∈ TypeStore.builtins ++ p.numberedDecls.filterMap fun x ↦
      if x.2.isAggregate then some (Template.aggregate x.1) else none := ht
  simp only [TypeStore.builtins, List.mem_append, List.mem_map, List.mem_cons, List.not_mem_nil,
    or_false, List.mem_filterMap] at ht'
  obtain (⟨q, hq, rfl⟩ | h | h) | ⟨⟨id, d⟩, -, h⟩ := ht'
  · exact .inl ⟨q, hq, rfl⟩
  · exact .inr (.inl h)
  · exact .inr (.inr (.inl h))
  · split at h
    · exact .inr (.inr (.inr ⟨id, (Option.some.inj h).symm⟩))
    · cases h

/-- The first two bytes of a native identity tell the kinds of template apart. -/
theorem Native.mark (ht : t.Native p) :
    t.identity.bytes.take 2 =
      match t with
      | .prim _ => [112, 114]
      | .pointer => [112, 116]
      | .function => [102, 110]
      | _ => [100, 101] := by
  obtain ⟨q, -, rfl⟩ | rfl | rfl | ⟨id, rfl⟩ := ht.cases <;> rfl

theorem primIdentity_injOn :
    ∀ q ∈ Prim.known.tail, ∀ q' ∈ Prim.known.tail, primIdentity q = primIdentity q' → q = q' := by
  decide

theorem declIdentity_injective : Function.Injective declIdentity := by
  intro d d' h
  have hbytes : (Text.ofNat d.toNat).bytes = (Text.ofNat d'.toNat).bytes :=
    List.append_cancel_left (congrArg Text.bytes h)
  exact UInt32.toNat_inj.1 (Text.ofNat_injective (congrArg Text.mk hbytes))

theorem Native.identity_injective (ht : t.Native p) (ht' : t'.Native p)
    (h : t.identity = t'.identity) : t = t' := by
  have hmark := ht.mark.symm.trans ((congrArg (fun i ↦ i.bytes.take 2) h).trans ht'.mark)
  obtain ⟨q, hq, rfl⟩ | rfl | rfl | ⟨id, rfl⟩ := ht.cases <;>
    obtain ⟨q', hq', rfl⟩ | rfl | rfl | ⟨id', rfl⟩ := ht'.cases <;> first
    | rfl
    | cases hmark
  · rw [primIdentity_injOn q hq q' hq' h]
  · rw [declIdentity_injective h]

/-- No native identity holds an opening bracket. -/
theorem Native.bracket_notMem (ht : t.Native p) : 40 ∉ t.identity.bytes := by
  obtain ⟨q, hq, rfl⟩ | rfl | rfl | ⟨id, rfl⟩ := ht.cases
  · have hall : ∀ q ∈ Prim.known.tail, 40 ∉ (primIdentity q).bytes := by decide
    exact hall q hq
  · decide
  · decide
  · intro h
    obtain h | h := List.mem_append.1 h
    · exact absurd h (by decide)
    · exact absurd (Text.isDigit_of_mem_ofNat h) (by decide)

end Template

/-! ## Texts of applications -/

theorem Application.bytes_key (a : Application) :
    a.key.bytes = a.template.identity.bytes ++
      40 :: ((Text.join "," (a.args.map Text.ofNat)).bytes ++ [41]) := by
  show (a.template.identity.bytes ++ [40] ++ _) ++ [41] = _
  simp

/-- The text of an application tells what is applied to what. -/
theorem Application.eq_of_key_eq {p : Program} {a b : Application} (ha : a.template.Native p)
    (hb : b.template.Native p) (h : a.key = b.key) :
    a.template = b.template ∧ a.args = b.args := by
  have hnot : 40 ∉ (Text.join "," (a.args.map Text.ofNat)).bytes ++ [41] := by
    intro h
    obtain h | h := List.mem_append.1 h
    · obtain h | ⟨t, ht, h⟩ := Text.mem_join h
      · exact absurd h (by decide)
      · obtain ⟨n, -, rfl⟩ := List.mem_map.1 ht
        exact absurd (Text.isDigit_of_mem_ofNat h) (by decide)
    · exact absurd h (by decide)
  have hbytes := a.bytes_key.symm.trans ((congrArg Text.bytes h).trans b.bytes_key)
  obtain ⟨hidentity, -, hargs⟩ := (List.append_cons_inj_of_notMem ha.bracket_notMem hnot).1 hbytes
  exact ⟨ha.identity_injective hb (congrArg Text.mk hidentity),
    Text.join_ofNat_injective (congrArg Text.mk (List.append_cancel_right hargs))⟩

namespace TypeStore

/-- The handle of the application with this text. -/
def keyed? (s : TypeStore) (key : Text) : Option Handle :=
  (s.applications.findIdx? fun a ↦ a.key = key).map (· + 1)

/-- Looking an application up by its text finds the same as by template and arguments. -/
theorem keyed?_key {s : TypeStore} {a : Application} (ha : a.template.Native s.program)
    (hs : ∀ b ∈ s.applications, b.template.Native s.program) :
    s.keyed? a.key = s.handle? a.template.identity a.args := by
  have agree (j : Nat) (hj : j < s.applications.size) :
      s.applications[j].key = a.key ↔ s.applications[j].template.identity = a.template.identity ∧
        s.applications[j].args = a.args := by
    constructor
    · intro h
      obtain ⟨htemplate, hargs⟩ := Application.eq_of_key_eq (hs _ (Array.getElem_mem hj)) ha h
      exact ⟨by rw [htemplate], hargs⟩
    · rintro ⟨hidentity, hargs⟩
      rw [Application.key, Application.key, hidentity, hargs]
  unfold keyed? handle?
  congr 1
  ext i
  simp only [Array.findIdx?_eq_some_iff_getElem, decide_eq_true_eq, agree]

end TypeStore

end WasmBackend
