import WasmBackend.Proofs.Storage.RoundTrip

/-!
# Types that are read back

A stored type is lawful when its values have its shape and can be made again from what is stored of
them, and faithful when nothing of them is lost on the way through bytes.  A record is one or the
other when all its columns are.
-/

namespace WasmBackend.Storage

open Wasm (Reads)

/-- Values have the shape of the type and are made again from what is stored of them. -/
class LawfulStored (α : Type) [Stored α] : Prop where
  conforms (x : α) : (Stored.shape α).Conforms (toDatum x)
  ofDatum_toDatum (x : α) : (ofDatum (toDatum x) : α) = x

/-- Values are read back as they are, and one that counts as zero is the zero of the shape. -/
class FaithfulStored (α : Type) [Stored α] : Prop extends LawfulStored α where
  readBack (x : α) : (Stored.shape α).readBack (toDatum x) = toDatum x
  eq_zero (x : α) : (toDatum x).isZero → toDatum x = (Stored.shape α).zero

attribute [simp] LawfulStored.conforms LawfulStored.ofDatum_toDatum FaithfulStored.readBack

instance : FaithfulStored Bool where
  conforms _ := trivial
  ofDatum_toDatum _ := rfl
  readBack _ := rfl
  eq_zero b h := congrArg Datum.bool (by simpa [toDatum, Datum.isZero] using h)

instance : FaithfulStored UInt16 where
  conforms n := ⟨Int.natCast_nonneg _, by exact_mod_cast n.toNat_lt⟩
  ofDatum_toDatum n := by simp [toDatum, ofDatum]
  readBack _ := rfl
  eq_zero n h := congrArg Datum.num (by simpa [toDatum, Datum.isZero] using h)

instance : FaithfulStored UInt32 where
  conforms n := ⟨Int.natCast_nonneg _, by exact_mod_cast n.toNat_lt⟩
  ofDatum_toDatum n := by simp [toDatum, ofDatum]
  readBack _ := rfl
  eq_zero n h := congrArg Datum.num (by simpa [toDatum, Datum.isZero] using h)

instance : FaithfulStored Int64 where
  conforms n := ⟨n.le_toInt, n.toInt_lt⟩
  ofDatum_toDatum n := by simp [toDatum, ofDatum]
  readBack _ := rfl
  eq_zero n h := congrArg Datum.num (by simpa [toDatum, Datum.isZero] using h)

instance : LawfulStored Double where
  conforms _ := trivial
  ofDatum_toDatum _ := rfl

instance : FaithfulStored Text where
  conforms _ := trivial
  ofDatum_toDatum _ := rfl
  readBack _ := rfl
  eq_zero t h := by
    obtain ⟨bytes⟩ := t
    obtain rfl : bytes = [] := by simpa [toDatum, Datum.isZero, Text.isEmpty] using h
    rfl

instance {α : Type} [Stored α] [LawfulStored α] : LawfulStored (List α) where
  conforms xs := ⟨rfl, by simp⟩
  ofDatum_toDatum xs := by
    show (xs.map toDatum).map ofDatum = xs
    simp [Function.comp_def]

/-- A list is read back item by item. -/
theorem readBack_list {α : Type} [Stored α] {f : α → α}
    (h : ∀ x, (Stored.shape α).readBack (toDatum x) = toDatum (f x)) (xs : List α) :
    (Stored.shape (List α)).readBack (toDatum xs) = toDatum (xs.map f) := by
  show Datum.list ((xs.map toDatum).map (Stored.shape α).readBack) [] =
    Datum.list ((xs.map f).map toDatum) []
  simp [h]

instance {α : Type} [Stored α] [FaithfulStored α] : FaithfulStored (List α) where
  readBack xs := by simpa using readBack_list (f := id) FaithfulStored.readBack xs
  eq_zero xs h := by
    obtain rfl : xs = [] := by simpa [toDatum, Datum.isZero] using h
    rfl

/-- A kind is faithful when its code names it. -/
theorem faithful_storedByCode {α : Type} {code : α → UInt8} {ofCode : UInt8 → α}
    (h : ∀ k, ofCode (code k) = k) : @FaithfulStored α (storedByCode code ofCode) :=
  letI := storedByCode code ofCode
  { conforms := fun k ↦ ⟨Int.natCast_nonneg _, by exact_mod_cast (code k).toNat_lt⟩
    ofDatum_toDatum := fun k ↦ by
      show ofCode ((code k).toNat : Int).toNat.toUInt8 = k
      simp [h]
    readBack := fun _ ↦ rfl
    eq_zero := fun k h ↦ congrArg Datum.num (by simpa [toDatum, Datum.isZero] using h) }

/-! ## Records -/

namespace Column

variable {σ : Type}

/-- What is read back of a field: the zero of its shape if it was left out. -/
def readBack (c : Column σ) (s : σ) : Datum :=
  if (c.get s).isZero && !c.always then c.shape.zero else c.shape.readBack (c.get s)

variable {α : Type} [Stored α] {key : Text} {get : σ → α} {set : α → σ → σ} {s : σ}

@[simp]
theorem shape_column : (column key get set).shape = Stored.shape α := rfl

@[simp]
theorem shape_fixedColumn : (fixedColumn key get set).shape = Stored.shape α := rfl

@[simp]
theorem get_column : (column key get set).get s = toDatum (get s) := rfl

@[simp]
theorem get_fixedColumn : (fixedColumn key get set).get s = toDatum (get s) := rfl

@[simp]
theorem set_column (v : Datum) : (column key get set).set v s = set (ofDatum v) s := rfl

@[simp]
theorem set_fixedColumn (v : Datum) : (fixedColumn key get set).set v s = set (ofDatum v) s := rfl

@[simp]
theorem readBack_column [FaithfulStored α] :
    (column key get set).readBack s = toDatum (get s) := by
  show (if (toDatum (get s)).isZero && true then _ else (Stored.shape α).readBack _) = _
  rw [Bool.and_true]
  split
  · exact (FaithfulStored.eq_zero (get s) ‹_›).symm
  · exact FaithfulStored.readBack (get s)

/-- A field that is always written is read back like its value. -/
@[simp]
theorem readBack_fixedColumn :
    (fixedColumn key get set).readBack s = (Stored.shape α).readBack (toDatum (get s)) := by
  show (if (toDatum (get s)).isZero && false then _ else (Stored.shape α).readBack _) = _
  rw [Bool.and_false]
  rfl

end Column

variable {σ : Type} {zero : σ} {columns : List (Column σ)}

@[simp]
theorem fillColumns_nil (zero : σ) : fillColumns [] zero [] = zero := rfl

@[simp]
theorem fillColumns_cons (c : Column σ) (columns : List (Column σ)) (zero : σ)
    (v : Datum) (vs : List Datum) :
    fillColumns (c :: columns) zero (v :: vs) = fillColumns columns (c.set v zero) vs := rfl

theorem conform_fieldsOf {s : σ} (h : ∀ c ∈ columns, c.shape.Conforms (c.get s)) :
    (fieldsOf columns).Conform (columns.map fun c ↦ c.get s) := by
  induction columns with
  | nil => trivial
  | cons c columns ih =>
    exact ⟨h c List.mem_cons_self, ih fun d hd ↦ h d (List.mem_cons_of_mem c hd)⟩

theorem readBack_fieldsOf (columns : List (Column σ)) (s : σ) :
    (fieldsOf columns).readBack (columns.map fun c ↦ c.get s) =
      columns.map fun c ↦ c.readBack s := by
  induction columns with
  | nil => rfl
  | cons c columns ih => exact congrArg (c.readBack s :: ·) ih

theorem lawful_storedRecord (hconforms : ∀ c ∈ columns, ∀ s, c.shape.Conforms (c.get s))
    (hfill : ∀ s, fillColumns columns zero (columns.map fun c ↦ c.get s) = s) :
    @LawfulStored σ (storedRecord zero columns) :=
  letI := storedRecord zero columns
  { conforms := fun s ↦ conform_fieldsOf fun c hc ↦ hconforms c hc s
    ofDatum_toDatum := hfill }

/-- What is read back of a record has the fields of the record that its columns give back. -/
theorem readBack_storedRecord {s s' : σ} (h : ∀ c ∈ columns, c.readBack s = c.get s') :
    letI := storedRecord zero columns
    (Stored.shape σ).readBack (toDatum s) = toDatum s' :=
  congrArg Datum.record ((readBack_fieldsOf columns s).trans (List.map_congr_left h))

theorem faithful_storedRecord (hconforms : ∀ c ∈ columns, ∀ s, c.shape.Conforms (c.get s))
    (hfill : ∀ s, fillColumns columns zero (columns.map fun c ↦ c.get s) = s)
    (hback : ∀ c ∈ columns, ∀ s, c.readBack s = c.get s) :
    @FaithfulStored σ (storedRecord zero columns) :=
  letI := storedRecord zero columns
  { lawful_storedRecord hconforms hfill with
    readBack := fun s ↦ readBack_storedRecord fun c hc ↦ hback c hc s
    eq_zero := fun _ ↦ nofun }

theorem faithful_storedOptional (hconforms : ∀ c ∈ columns, ∀ s, c.shape.Conforms (c.get s))
    (hfill : ∀ s, fillColumns columns zero (columns.map fun c ↦ c.get s) = s)
    (hback : ∀ c ∈ columns, ∀ s, c.readBack s = c.get s) :
    @FaithfulStored (Option σ) (storedOptional zero columns) :=
  letI := storedOptional zero columns
  { conforms := fun
      | some s => conform_fieldsOf fun c hc ↦ hconforms c hc s
      | none => trivial
    ofDatum_toDatum := fun
      | some s => congrArg some (hfill s)
      | none => rfl
    readBack := fun
      | some s => congrArg Datum.record ((readBack_fieldsOf columns s).trans
          (List.map_congr_left fun c hc ↦ hback c hc s))
      | none => rfl
    eq_zero := fun
      | some _ => nofun
      | none => fun _ ↦ rfl }

namespace MessagePack

/-- What is written of a value is read back, whatever follows. -/
theorem reads_decode {α : Type} [Stored α] [LawfulStored α] {x y : α}
    (hkeyed : (Stored.shape α).wellKeyed) (hbounded : (toDatum x).bounded)
    (hback : (Stored.shape α).readBack (toDatum x) = toDatum y) :
    Reads (decode α) (encode x) y := by
  have hread : ReadsBack (Stored.shape α) (toDatum x) :=
    readsBack _ _ hkeyed (LawfulStored.conforms x) hbounded
  rw [ReadsBack, hback] at hread
  refine hread.bind_pure ?_
  rw [LawfulStored.ofDatum_toDatum]
  exact .pure

/-- Values are written alike when the first is read back as the second. -/
theorem encode_eq_of_readBack {α : Type} [Stored α] [LawfulStored α] {x y : α}
    (hback : (Stored.shape α).readBack (toDatum x) = toDatum y) : encode y = encode x := by
  unfold encode
  rw [← hback]
  exact write_readBack _ _ (LawfulStored.conforms x)

end MessagePack

end WasmBackend.Storage
